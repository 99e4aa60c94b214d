import Switchboard.Proofs.Cluster.Departure
import Switchboard.Proofs.Cluster.Rebalancing

namespace Switchboard.Cluster

def vacate (id : MemberId) (t : Table) : Table := t.map fun o => if o = some id then none else o

def bereft (c : Cluster) (id : MemberId) (seat : Seat) : Cluster :=
  (c.without id seat).record seat.number seat.server.shutdown.2

variable {c : Cluster} {t : Table} {id other : MemberId} {seat : Seat} {p : PartitionId}

theorem removeMember_eq (hs : Keyed.find? id c.seats = some seat) :
    c.removeMember id = .ok (seat.server.member, (c.bereft id seat).assignUnowned) := by
  simp only [removeMember, hs]
  rfl

theorem getElem?_vacate_some (hne : other ≠ id) :
    (vacate id t)[p]? = some (some other) ↔ t[p]? = some (some other) := by
  simp only [vacate, List.getElem?_map, Option.map_eq_some_iff]
  constructor
  · rintro ⟨o, ho, hsame⟩
    split at hsame
    · cases hsame
    · rwa [← hsame]
  · intro ho
    exact ⟨some other, ho, by simp [hne]⟩

theorem getElem?_vacate_none :
    (vacate id t)[p]? = some none ↔ t[p]? = some none ∨ t[p]? = some (some id) := by
  simp only [vacate, List.getElem?_map, Option.map_eq_some_iff]
  constructor
  · rintro ⟨o, ho, hsame⟩
    split at hsame
    · next hid => exact Or.inr (hid ▸ ho)
    · exact Or.inl (hsame ▸ ho)
  · rintro (ho | ho)
    · exact ⟨none, ho, by simp⟩
    · exact ⟨some id, ho, by simp⟩

theorem count_none_vacate (id : MemberId) (t : Table) (p : PartitionId) :
    ((vacate id t).take p).count none = (t.take p).countP fun o => o = none ∨ o = some id := by
  rw [vacate, ← List.map_take, List.count, List.countP_map]
  refine List.countP_congr fun o _ => ?_
  simp only [Function.comp_apply, beq_iff_eq, decide_eq_true_eq]
  split
  · next hid => simp [hid]
  · next hid => simp [hid]

theorem load_vacate (hne : other ≠ id) (t : Table) : load (vacate id t) other = load t other := by
  rw [load, load, vacate, List.count, List.countP_map]
  refine List.countP_congr fun o _ => ?_
  simp only [Function.comp_apply, beq_iff_eq]
  split
  · next hid => simp [hid, Ne.symm hne]
  · rfl

theorem spread_vacate {ids : List MemberId} (hids : id ∉ ids) (t : Table) :
    spread (vacate id t) ids = spread t ids := by
  have hloads : ids.map (load (vacate id t)) = ids.map (load t) :=
    List.map_congr_left fun other ho => load_vacate (by rintro rfl; exact hids ho) t
  rw [spread, hloads, spread]

theorem owners_assignUnowned (c : Cluster) :
    c.assignUnowned.owners = (deal c.dataIds 0 0 c.owners).1 :=
  owners_announceAll ..

theorem dataIds_assignUnowned (h : Keyed.Sorted c.seats) : c.assignUnowned.dataIds = c.dataIds :=
  dataIds_of_roster ((rewriting_assignUnowned c).roster h)

theorem members_assignUnowned (h : Keyed.Sorted c.seats) : c.assignUnowned.members = c.members :=
  members_of_roster ((rewriting_assignUnowned c).roster h)

theorem ownerId?_assignUnowned (c : Cluster) (p : PartitionId) :
    c.assignUnowned.ownerId? p =
      ((c.owners[p]?).map fun o => o.or (turn c.dataIds ((c.owners.take p).count none))).join := by
  rw [ownerId?, owners_assignUnowned, getElem?_deal, Nat.zero_add]

theorem mem_members_bereft (h : Coherent c) (id : MemberId) (seat : Seat) (m : Member) :
    m ∈ (c.bereft id seat).members ↔ m ∈ c.members ∧ m.id ≠ id := by
  have hmem {e : MemberId × Seat} (he : e ∈ c.seats) : e.2.server.member.id = e.1 :=
    (h.serves he).member
  simp only [bereft, members, Cluster.record, without, Keyed.values, List.map_map, List.mem_map,
    Keyed.mem_erase h.sorted, Function.comp_apply]
  constructor
  · rintro ⟨e, ⟨he, hne⟩, rfl⟩
    exact ⟨⟨e, he, rfl⟩, by rwa [hmem he]⟩
  · rintro ⟨⟨e, he, rfl⟩, hne⟩
    exact ⟨e, ⟨he, by rwa [hmem he] at hne⟩, rfl⟩

theorem not_mem_dataIds_bereft (h : Keyed.Sorted c.seats) :
    id ∉ (c.bereft id seat).dataIds := by
  intro hid
  obtain ⟨_, hfound, -⟩ := (mem_dataIds (c := c.bereft id seat) (Keyed.sorted_erase id h)).1 hid
  rw [bereft, Cluster.record, without, Keyed.find?_erase_self h] at hfound
  cases hfound

theorem Coherent.bereft (h : Coherent c) (hs : Keyed.find? id c.seats = some seat) :
    Coherent (c.bereft id seat) :=
  (h.change (.leave id seat hs)).change (.hooks ..)

theorem Coherent.assignUnowned (h : Coherent c) : Coherent c.assignUnowned :=
  h.change (rewriting_assignUnowned c).change

theorem ownerId?_relieved (hne : other ≠ id) (ho : c.ownerId? p = some other) :
    (c.bereft id seat).assignUnowned.ownerId? p = some other := by
  have howner : (c.bereft id seat).owners[p]? = some (some other) :=
    (getElem?_vacate_some hne).2 (ownerId?_eq_some.1 ho)
  rw [ownerId?_assignUnowned, howner]
  rfl

theorem Coherent.owner?_relieved (h : Coherent c) (hs : Keyed.find? id c.seats = some seat)
    (hp : p < c.config.partitionCount) (ho : c.ownerId? p = none ∨ c.ownerId? p = some id) :
    let d := (c.bereft id seat).assignUnowned
    d.owner? p = (dataMembers d.members)[
      (c.owners.take p).countP (fun o => o = none ∨ o = some id) %
        (dataMembers d.members).length]? := by
  intro d
  have hleft := h.bereft hs
  have hd : Coherent d := hleft.assignUnowned
  have hlt : p < c.owners.length := h.length ▸ hp
  have hfree : (c.bereft id seat).owners[p]? = some none := by
    refine getElem?_vacate_none.2 ?_
    rw [List.getElem?_eq_getElem hlt]
    simpa [ownerId?, List.getElem?_eq_getElem hlt] using ho
  have hlength : (dataMembers d.members).length = d.dataIds.length := by
    rw [← hd.ids_dataMembers, List.length_map]
  refine hd.owner?_eq ?_
  rw [ownerId?_assignUnowned, hfree, hlength, dataIds_assignUnowned hleft.sorted,
    ← count_none_vacate]
  exact Option.none_or

theorem Coherent.told_relieved (h : Coherent c) (hs : Keyed.find? id c.seats = some seat) :
    let d := (c.bereft id seat).assignUnowned
    ∃ log, d.history = c.history ++ (seat.number, ⟨.stop, .terminating⟩) :: log ∧
      Told d.roster 0 (vacate id c.owners) d.owners log := by
  intro d
  have hleft := h.bereft hs
  obtain ⟨log, hlog, htold⟩ :=
    hleft.told (deal_shifts (c.bereft id seat).dataIds 0 0 _) fun _ => deal_destination
  have hstop := shutdown_running (h.agrees id seat hs).running
  refine ⟨log, ?_, ?_⟩
  · change d.history = (c.bereft id seat).history ++ log at hlog
    refine hlog.trans ?_
    simp [Cluster.bereft, Cluster.record, without, hstop]
  · rw [(rewriting_assignUnowned _).roster hleft.sorted, owners_assignUnowned]
    exact htold

theorem Kept.bereft (h : Kept c) (hs : Keyed.find? id c.seats = some seat) :
    Kept (c.bereft id seat) :=
  (h.retire (Keyed.erase_perm hs).symm (Keyed.sorted_erase id h.sorted)).rewrite _ _ _

theorem Kept.silent_relieved (h : Kept c) (hs : Keyed.find? id c.seats = some seat)
    (hrun : seat.server.status = .running) (deeds : List Deed) :
    ((c.bereft id seat).assignUnowned.undergoAll deeds).hooksOf seat.number =
      c.hooksOf seat.number ++ [⟨.stop, .terminating⟩] := by
  have hleft := h.bereft hs
  have hd : Kept (c.bereft id seat).assignUnowned :=
    hleft.rewriting (rewriting_assignUnowned _)
  have hfollows : Follows (c.bereft id seat)
      ((c.bereft id seat).assignUnowned.undergoAll deeds) :=
    (rewriting_assignUnowned _).follows.trans (follows_undergoAll ..)
  have hgone : seat.shut ∈ (c.bereft id seat).departed := List.mem_cons_self
  have hquiet := hfollows.quiet hleft (hd.undergoAll deeds) hgone
  calc ((c.bereft id seat).assignUnowned.undergoAll deeds).hooksOf seat.number
      = (c.bereft id seat).hooksOf seat.number := hquiet
    _ = c.hooksOf seat.number ++ [⟨.stop, .terminating⟩] := by
        rw [Cluster.bereft, hooksOf_record_self, shutdown_running hrun]
        rfl

theorem Coherent.spread_relieved (h : Coherent c) (hs : Keyed.find? id c.seats = some seat) :
    let d := (c.bereft id seat).assignUnowned
    spread d.owners d.dataIds ≤ spread c.owners d.dataIds + 1 := by
  intro d
  have hleft := h.bereft hs
  have hnodup : (c.bereft id seat).dataIds.Nodup := hleft.dataIds_sorted.imp ne_of_lt
  rw [owners_assignUnowned, dataIds_assignUnowned hleft.sorted,
    ← spread_vacate (not_mem_dataIds_bereft h.sorted) c.owners]
  exact spread_deal hnodup _

structure Relieved (c : Cluster) (id : MemberId) (seat : Seat) (d : Cluster) : Prop where
  members : ∀ m, m ∈ d.members ↔ m ∈ c.members ∧ m.id ≠ id
  ordered : (d.members.map (·.id)).Pairwise (· < ·)
  kept : ∀ p other, other ≠ id → c.ownerId? p = some other → d.ownerId? p = some other
  dealt : ∀ p, p < c.config.partitionCount → c.ownerId? p = none ∨ c.ownerId? p = some id →
    d.owner? p = (dataMembers d.members)[
      (c.owners.take p).countP (fun o => o = none ∨ o = some id) %
        (dataMembers d.members).length]?
  unowned : dataMembers d.members = [] → ∀ p, d.ownerId? p = none
  told : ∃ log, d.history = c.history ++ (seat.number, ⟨.stop, .terminating⟩) :: log ∧
    Told d.roster 0 (vacate id c.owners) d.owners log
  silent : ∀ deeds, (d.undergoAll deeds).hooksOf seat.number =
    c.hooksOf seat.number ++ [⟨.stop, .terminating⟩]
  even : let ids := (dataMembers d.members).map (·.id)
    spread d.owners ids ≤ spread c.owners ids + 1

theorem Sound.relieved (h : Sound c) (hkept : Kept c)
    (hs : Keyed.find? id c.seats = some seat) :
    Relieved c id seat (c.bereft id seat).assignUnowned := by
  have hleft := h.coherent.bereft hs
  have hd := hleft.assignUnowned
  exact {
    members := fun m => by
      rw [members_assignUnowned hleft.sorted]
      exact mem_members_bereft h.coherent id seat m
    ordered := hd.consistent.alive.2
    kept := fun p other => ownerId?_relieved
    dealt := fun p => h.coherent.owner?_relieved hs
    unowned := fun hnone => by
      refine hd.unowned ?_
      rw [← hd.ids_dataMembers, hnone, List.map_nil]
    told := h.coherent.told_relieved hs
    silent := hkept.silent_relieved hs (h.coherent.agrees id seat hs).running
    even := by
      rw [hd.ids_dataMembers]
      exact h.coherent.spread_relieved hs }

theorem removal_moves_least {config : ClusterConfig} {c₀ : Cluster} (hnew : create config = .ok c₀)
    (es : List Event) {id : MemberId} {seat : Seat}
    (hs : Keyed.find? id (c₀.afterAll es).seats = some seat) :
    ∃ d, (c₀.afterAll es).removeMember id = .ok (seat.server.member, d) ∧
      Relieved (c₀.afterAll es) id seat d := by
  obtain ⟨rfl, hpos⟩ := create_eq hnew
  have hsound : Sound ((new config).afterAll es) := (sound_new hpos).afterAll es
  have hkept : Kept ((new config).afterAll es) := (kept_new config).afterAll es
  exact ⟨_, removeMember_eq hs, hsound.relieved hkept hs⟩

def patchy : List Event :=
  [.operate (.add ⟨"b", "x", false⟩ []), .operate (.add ⟨"a", "y", false⟩ []),
    .operate (.add ⟨"d", "z", false⟩ []), .operate (.add ⟨"c", "z", true⟩ []),
    .operate (.move 0 "b"), .operate (.move 1 "b"), .operate (.move 3 "a")]

def leaver : Seat := ⟨0, ⟨"s", ⟨"b", "x", false⟩, .running, [0, 1], []⟩⟩

theorem removal_moves_least_of_patchy :
    let c := (new ⟨5, "s"⟩).afterAll patchy
    create ⟨5, "s"⟩ = .ok (new ⟨5, "s"⟩) ∧
      c.owners = [some "b", some "b", none, some "a", none] ∧
      Keyed.find? "b" c.seats = some leaver ∧
      ∃ d, c.removeMember "b" = .ok (⟨"b", "x", false⟩, d) ∧ Relieved c "b" leaver d := by
  intro c
  have hnew : create ⟨5, "s"⟩ = .ok (new ⟨5, "s"⟩) := rfl
  have hs : Keyed.find? "b" c.seats = some leaver := rfl
  exact ⟨hnew, by decide +kernel, hs, removal_moves_least hnew patchy hs⟩

example : (((new ⟨5, "s"⟩).afterAll patchy).perform (.remove "b")).owners =
    [some "a", some "d", some "a", some "a", some "d"] := by decide +kernel

example : ((((new ⟨5, "s"⟩).afterAll patchy).perform (.remove "b")).history.drop 7).map
    (fun e => (e.1, e.2.hook.display)) =
      [(0, "stop"), (1, "+0"), (2, "+1"), (1, "+2"), (2, "+4")] := by decide +kernel

end Switchboard.Cluster

import Switchboard.Proofs.Cluster.Removal

namespace Switchboard

theorem Server.handle_member {s s' : Server} {r : Server.Request} {runs : List HookRun}
    (h : s.handle r = .ok (s', runs)) : s'.member = s.member := by
  cases r with
  | start =>
      simp only [Server.handle, Server.start] at h
      split at h <;> cases h <;> rfl
  | shutdown =>
      simp only [Server.handle, Server.shutdown] at h
      split at h <;> cases h <;> rfl
  | add p =>
      cases h
      rfl
  | remove p =>
      cases h
      rfl

namespace Cluster

def Staffed (c : Cluster) : Prop := ∃ m ∈ c.members, m.lite = false

instance (c : Cluster) : Decidable c.Staffed :=
  inferInstanceAs (Decidable (∃ m ∈ c.members, m.lite = false))

def Covered (c : Cluster) : Prop :=
  ∀ p < c.config.partitionCount, ∃ m ∈ c.members, m.lite = false ∧ c.owner? p = some m

variable {c c' : Cluster} {ids : List MemberId} {id : MemberId} {p : PartitionId} {n : Nat}
  {s s' : Server}

theorem staffed_iff : c.Staffed ↔ c.dataIds ≠ [] := by
  rw [dataIds, Ne, List.map_eq_nil_iff, List.filter_eq_nil_iff]
  simp only [Staffed, members, Keyed.values, List.map_map, List.mem_map, Function.comp_apply,
    Bool.not_eq_true', Bool.not_eq_false, not_forall, exists_prop]
  constructor
  · rintro ⟨_, ⟨e, he, rfl⟩, hl⟩
    exact ⟨e, he, by simp [hl]⟩
  · rintro ⟨e, he, hl⟩
    exact ⟨_, ⟨e, he, rfl⟩, by simpa using hl⟩

theorem Allotted.covered_iff (h : Allotted c) : c.Covered ↔ none ∉ c.owners := by
  constructor
  · intro hc hnone
    obtain ⟨p, hp⟩ := List.mem_iff_getElem?.1 hnone
    have hlt : p < c.owners.length := (List.getElem?_eq_some_iff.1 hp).1
    obtain ⟨m, -, -, hm⟩ := hc p (h.length ▸ hlt)
    simp [owner?, ownerId?, hp] at hm
  · intro hc p hp
    have hlt : p < c.owners.length := h.length.symm ▸ hp
    cases ho : c.owners[p] with
    | none => exact absurd (ho ▸ List.getElem_mem hlt) hc
    | some id =>
        have howner : c.ownerId? p = some id := by
          rw [ownerId?_eq_some, List.getElem?_eq_getElem hlt, ho]
        obtain ⟨seat, hs, hm, hl⟩ := h.owner_seat howner
        exact ⟨_, mem_members hs, hl, hm⟩

theorem Allotted.of_roster (h : Allotted c) (hconfig : c'.config = c.config)
    (howners : c'.owners = c.owners) (hroster : c'.roster = c.roster) : Allotted c' := by
  refine ⟨by rw [howners, hconfig, h.length], ?_, fun id ho => ?_⟩
  · rw [← Keyed.sorted_map Seat.badge]
    change Keyed.Sorted c'.roster
    rw [hroster]
    exact (Keyed.sorted_map Seat.badge).2 h.sorted
  · rw [dataIds_of_roster hroster]
    exact h.eligible id (howners ▸ ho)

theorem Kept.roster_updateServer (h : Kept c) (hn : c.server? n = some s)
    (hm : s'.member = s.member) : (c.updateServer n s').roster = c.roster := by
  simp only [roster, updateServer, List.map_map]
  refine List.map_congr_left fun e he => ?_
  have hseat : e.2 ∈ c.allSeats := List.mem_append_left _ (List.mem_map_of_mem he)
  by_cases hnumber : e.2.number = n
  · have hserver : e.2.server = s := Option.some.inj ((h.server?_eq hseat).symm.trans (hnumber ▸ hn))
    simp [Seat.update, hnumber, Seat.badge, hm, hserver]
  · simp [Seat.update, hnumber]

inductive Deed.Plain : Deed → Prop
  | submit (call : Call) (target : Option Member) : Plain (.event (.submit call target))
  | run (now n : Nat) : Plain (.event (.run now n))
  | abort (n : Nat) : Plain (.event (.abort n))
  | ask (n : Nat) (r : Server.Request) : Plain (.ask n r)

theorem Kept.plain (h : Kept c) {deed : Deed} (hd : deed.Plain) :
    (c.undergo deed).owners = c.owners ∧ (c.undergo deed).roster = c.roster := by
  cases hd with
  | submit call target => exact submit_keeps c call target
  | run now n =>
      change (c.runTaskAt now n).owners = _ ∧ (c.runTaskAt now n).roster = _
      rcases runTaskAt_cases c now n with hc | ⟨t, -, ⟨e, -, hc⟩ | ⟨s, w, hs, hc⟩⟩
      · rw [hc]
        exact ⟨rfl, rfl⟩
      · rw [hc]
        exact ⟨rfl, rfl⟩
      · obtain ⟨services, stage, hw⟩ := work_eq c now t s w
        have hserved : (c.updateServer t.seat { s with services := services }).roster = c.roster :=
          h.roster_updateServer hs rfl
        rw [hc, hw]
        exact ⟨rfl, hserved⟩
  | abort n => exact ⟨rfl, rfl⟩
  | ask n r =>
      change (c.ask n r).owners = _ ∧ (c.ask n r).roster = _
      rcases ask_cases c n r with hc | ⟨s, s', runs, hn, hr, hc⟩
      · rw [hc]
        exact ⟨rfl, rfl⟩
      · rw [hc]
        exact ⟨rfl, h.roster_updateServer hn (Server.handle_member hr)⟩

theorem config_undergo (c : Cluster) (deed : Deed) : (c.undergo deed).config = c.config := by
  cases deed with
  | event e => exact config_afterAll c [e]
  | ask n r =>
      change (c.ask n r).config = c.config
      rcases ask_cases c n r with hc | ⟨s, s', runs, -, -, hc⟩
      · rw [hc]
      · rw [hc]
        rfl

theorem config_undergoAll (c : Cluster) (deeds : List Deed) :
    (c.undergoAll deeds).config = c.config := by
  induction deeds generalizing c with
  | nil => rfl
  | cons deed deeds ih => exact (ih _).trans (config_undergo c deed)

theorem Deed.cases (deed : Deed) : (∃ o, deed = .event (.operate o)) ∨ deed.Plain := by
  cases deed with
  | event e =>
      cases e with
      | operate o => exact Or.inl ⟨o, rfl⟩
      | submit call target => exact Or.inr (.submit call target)
      | run now n => exact Or.inr (.run now n)
      | abort n => exact Or.inr (.abort n)
  | ask n r => exact Or.inr (.ask n r)

theorem Allotted.undergo (h : Allotted c) (hk : Kept c) (deed : Deed) :
    Allotted (c.undergo deed) := by
  rcases deed.cases with ⟨o, rfl⟩ | hd
  · exact invariant_of_steps (changes_perform c o) Allotted.change h
  · obtain ⟨howners, hroster⟩ := hk.plain hd
    exact h.of_roster (config_undergo c deed) howners hroster

theorem Allotted.undergoAll (h : Allotted c) (hk : Kept c) (deeds : List Deed) :
    Allotted (c.undergoAll deeds) := by
  induction deeds generalizing c with
  | nil => exact h
  | cons deed deeds ih => exact ih (h.undergo hk deed) (hk.undergo deed)

theorem none_not_mem_deal (h : ids ≠ []) (t : Table) : none ∉ (deal ids 0 0 t).1 := by
  intro hnone
  obtain ⟨i, hi⟩ := List.mem_iff_getElem?.1 hnone
  rw [getElem?_deal] at hi
  obtain ⟨o, -, ho⟩ := Option.map_eq_some_iff.1 hi
  obtain ⟨id, -, hid⟩ := exists_turn h (0 + (t.take i).count none)
  rw [hid] at ho
  cases o <;> cases ho

theorem none_not_mem_assignUnowned (h : c.dataIds ≠ []) : none ∉ c.assignUnowned.owners := by
  rw [owners_assignUnowned]
  exact none_not_mem_deal h c.owners

theorem none_not_mem_rebalance (h : c.dataIds ≠ []) : none ∉ c.rebalance.owners := by
  intro hnone
  rw [rebalance, owners_announceAll] at hnone
  obtain ⟨p, hp, ho⟩ := List.mem_mapIdx.1 hnone
  obtain ⟨id, -, hid⟩ := exists_turn h p
  rw [hid] at ho
  cases ho

theorem Allotted.none_not_mem_removeMember (h : Allotted c) {r : Member × Cluster}
    (hr : c.removeMember id = .ok r) (hs : r.2.Staffed) : none ∉ r.2.owners := by
  cases hfound : Keyed.find? id c.seats with
  | none => simp [removeMember, hfound] at hr
  | some seat =>
      rw [removeMember_eq hfound] at hr
      cases hr
      have hsorted : Keyed.Sorted (c.bereft id seat).seats := Keyed.sorted_erase id h.sorted
      refine none_not_mem_assignUnowned ?_
      rw [← dataIds_assignUnowned hsorted]
      exact staffed_iff.1 hs

theorem owners_movePartition (h : c.movePartition p id = .ok c') :
    c'.owners = c.owners.set p (some id) := by
  unfold movePartition at h
  split at h
  · cases h
  split at h
  · cases h
  split at h
  · cases h
  cases h
  split
  · rfl
  · exact owners_announceAll _ [_]

theorem not_staffed_of_seats_nil (h : c.seats = []) : ¬ c.Staffed := by
  rw [staffed_iff, dataIds, h]
  simp

theorem Allotted.none_not_mem_perform (h : Allotted c) (hc : none ∉ c.owners) (o : Operation)
    (hs : (c.perform o).Staffed) : none ∉ (c.perform o).owners := by
  cases ho : c.attempt o with
  | error e => simpa only [perform, ho] using hc
  | ok d =>
      simp only [perform, ho] at hs ⊢
      cases o with
      | add m services =>
          rw [(addMember_keeps ho).1]
          exact hc
      | remove id =>
          obtain ⟨r, hr, rfl⟩ := attempt_remove ho
          exact h.none_not_mem_removeMember hr hs
      | move p id =>
          rw [owners_movePartition ho]
          intro hnone
          rcases List.mem_or_eq_of_mem_set hnone with hnone | hnone
          · exact hc hnone
          · cases hnone
      | rebalance =>
          cases ho
          refine none_not_mem_rebalance ?_
          rw [← dataIds_rebalance h.sorted]
          exact staffed_iff.1 hs
      | shutdown =>
          cases ho
          cases hrun : c.running with
          | true => exact absurd hs (not_staffed_of_seats_nil (down_shutdown hrun).empty)
          | false => simpa [shutdown, hrun] using hc

theorem Allotted.covered_undergo (h : Allotted c) (hk : Kept c) (hc : c.Covered) (deed : Deed)
    (hs : (c.undergo deed).Staffed) : (c.undergo deed).Covered := by
  rw [(h.undergo hk deed).covered_iff]
  have hnone := h.covered_iff.1 hc
  rcases deed.cases with ⟨o, rfl⟩ | hd
  · exact h.none_not_mem_perform hnone o hs
  · rw [(hk.plain hd).1]
    exact hnone

theorem Allotted.covered_undergoAll (h : Allotted c) (hk : Kept c) (hc : c.Covered)
    {deeds : List Deed} (hs : ∀ pre, pre <+: deeds → (c.undergoAll pre).Staffed) :
    (c.undergoAll deeds).Covered := by
  induction deeds generalizing c with
  | nil => exact hc
  | cons deed deeds ih =>
      have hstaffed : (c.undergo deed).Staffed := hs [deed] ⟨deeds, rfl⟩
      refine ih (h.undergo hk deed) (hk.undergo deed) (h.covered_undergo hk hc deed hstaffed) ?_
      intro pre hpre
      exact hs (deed :: pre) (List.prefix_cons_inj deed |>.2 hpre)

theorem route_covered (hc : c.Covered) (hrun : c.running = true)
    (hpos : 0 < c.config.partitionCount) {call : Call} {k : PartitionKey} (hk : call.key = some k) :
    ∃ id, ∃ m ∈ c.members, m.lite = false ∧ c.owner? (c.partitionFor k) = some m ∧
      c.route call none = .ok (id, some (c.partitionFor k)) ∧
      (Keyed.find? id c.seats).map (·.server.member) = some m := by
  have hlt := k.partition_lt c.config.partitionCount
  rw [Nat.max_eq_left hpos] at hlt
  obtain ⟨m, hmem, hl, hm⟩ := hc (c.partitionFor k) hlt
  cases ho : c.ownerId? (c.partitionFor k) with
  | none => simp [owner?, ho] at hm
  | some id =>
      refine ⟨id, m, hmem, hl, hm, ?_, ?_⟩
      · simp [route, hrun, hk, ho]
      · simpa [owner?, ho] using hm

theorem route_unassigned {call : Call} {target : Option Member} {e : RemoteError}
    (h : c.route call target = .error e) (he : e.kind = "PartitionUnassigned") :
    target = none ∧ ∃ k, call.key = some k := by
  unfold route at h
  split at h
  · cases h
    simp [RemoteError.of, RemoteError.kind] at he
  cases target with
  | some m => cases h
  | none =>
      cases hk : call.key with
      | some k => exact ⟨rfl, k, rfl⟩
      | none =>
          rw [hk] at h
          cases h
          simp [RemoteError.of, RemoteError.kind] at he

theorem submit_unassigned {call : Call} {target : Option Member} {e : RemoteError}
    (h : (c.submit call target).1 = .settled (.error (.remote e)))
    (he : e.kind = "PartitionUnassigned") :
    (∃ k, call.key = some k) ∧ c.route call none = .error e := by
  unfold submit at h
  split at h
  · next hroute =>
      cases h
      obtain ⟨rfl, hkey⟩ := route_unassigned hroute he
      exact ⟨hkey, hroute⟩
  split at h
  · cases h
  split at h
  · cases h
    simp [RemoteError.of, RemoteError.kind] at he
  · cases h

/-- Once every partition has an owner, none is without one for as long as there is somebody to own
it; a rebalance and a departure give one to every partition, whatever the table was. -/
theorem no_partition_lost {config : ClusterConfig} {c₀ : Cluster} (hnew : create config = .ok c₀)
    (deeds : List Deed) :
    let c := c₀.undergoAll deeds
    (c.Covered → ∀ deed, (c.undergo deed).Staffed → (c.undergo deed).Covered) ∧
      (c.rebalance.Staffed → c.rebalance.Covered) ∧
      (∀ id r, c.removeMember id = .ok r → r.2.Staffed → r.2.Covered) ∧
      ∀ later, (∀ pre, pre <+: later → (c.rebalance.undergoAll pre).Staffed) →
        let d := c.rebalance.undergoAll later
        (∀ call k, call.key = some k → ∃ id, ∃ m ∈ d.members, m.lite = false ∧
          d.owner? (d.partitionFor k) = some m ∧
          d.route call none = .ok (id, some (d.partitionFor k)) ∧
          (Keyed.find? id d.seats).map (·.server.member) = some m) ∧
        ∀ call target e, (d.submit call target).1 = .settled (.error (.remote e)) →
          e.kind ≠ "PartitionUnassigned" := by
  intro c
  obtain ⟨rfl, hpos⟩ := create_eq hnew
  have hk : Kept c := (kept_new config).undergoAll deeds
  have h : Allotted c := (allotted_new config).undergoAll (kept_new config) deeds
  have hrebalanced : c.rebalance.Staffed → c.rebalance.Covered := fun hs => by
    have hdealt := h.undergo hk (.event (.operate .rebalance))
    refine hdealt.covered_iff.2 (none_not_mem_rebalance ?_)
    rw [← dataIds_rebalance h.sorted]
    exact staffed_iff.1 hs
  refine ⟨fun hc deed => h.covered_undergo hk hc deed, hrebalanced, ?_, ?_⟩
  · intro id r hr hs
    have hleft := invariant_of_steps (changes_removeMember hr) Allotted.change h
    exact hleft.covered_iff.2 (h.none_not_mem_removeMember hr hs)
  · intro later hs d
    have hlater := running_undergoAll (c := new config) (Or.inl rfl)
      (deeds ++ .event (.operate .rebalance) :: later)
    have hd : (new config).undergoAll (deeds ++ .event (.operate .rebalance) :: later) = d := by
      simp [c, d, undergoAll, undergo, after, perform, attempt]
    rw [hd] at hlater
    have hrun : d.running = true := hlater.resolve_right fun hdown =>
      not_staffed_of_seats_nil hdown.empty (hs later (List.prefix_refl _))
    have hcount : 0 < d.config.partitionCount := by
      rw [← hd, config_undergoAll]
      exact hpos
    have hcovered : d.Covered :=
      (h.undergo hk (.event (.operate .rebalance))).covered_undergoAll
        (hk.undergo (.event (.operate .rebalance))) (hrebalanced (hs [] List.nil_prefix)) hs
    have hroute {call : Call} {k : PartitionKey} (hkey : call.key = some k) :=
      route_covered hcovered hrun hcount hkey
    refine ⟨fun call k => hroute, fun call target e he hkind => ?_⟩
    obtain ⟨⟨k, hkey⟩, herror⟩ := submit_unassigned he hkind
    obtain ⟨id, m, -, -, -, hok, -⟩ := hroute hkey
    rw [herror] at hok
    cases hok

def gathering : List Deed :=
  [.event (.operate (.add ⟨"b", "x", false⟩ [("S", silent)])),
    .event (.operate (.add ⟨"c", "y", true⟩ [])), .event (.operate (.add ⟨"a", "z", false⟩ [])),
    .event (.operate (.move 1 "b"))]

def comings : List Deed :=
  [.event (.operate (.remove "a")), .ask 0 .shutdown,
    .event (.operate (.add ⟨"a", "z", false⟩ [("S", silent)])), .event (.operate (.remove "b"))]

theorem no_partition_lost_of_gathering :
    let c := (new ⟨3, "s"⟩).undergoAll gathering
    let d := c.rebalance.undergoAll comings
    create ⟨3, "s"⟩ = .ok (new ⟨3, "s"⟩) ∧ c.owners = [none, some "b", none] ∧
      c.rebalance.Covered ∧ (c.rebalance.undergo (.event (.operate (.remove "b")))).Covered ∧
      (∃ r, c.removeMember "b" = .ok r ∧ r.2.Covered) ∧
      (∃ id, ∃ m ∈ d.members, d.owner? (d.partitionFor ⟨.str "k"⟩) = some m ∧
        d.route keyed none = .ok (id, some (d.partitionFor ⟨.str "k"⟩))) := by
  intro c d
  have hnew : create ⟨3, "s"⟩ = .ok (new ⟨3, "s"⟩) := rfl
  have hstaffed : ∀ pre, pre <+: comings → (c.rebalance.undergoAll pre).Staffed := by
    have hall : ∀ pre ∈ comings.inits, (c.rebalance.undergoAll pre).Staffed := by decide +kernel
    exact fun pre hpre => hall pre ((List.mem_inits _ _).2 hpre)
  obtain ⟨-, hrebalanced, hremoved, hrun⟩ := no_partition_lost hnew gathering
  have hcovered : c.rebalance.Covered := hrebalanced (by decide +kernel)
  refine ⟨hnew, by decide +kernel, hcovered, ?_, ?_, ?_⟩
  · have hlater := no_partition_lost hnew (gathering ++ [.event (.operate .rebalance)])
    simp only [undergoAll, List.foldl_append] at hlater
    exact hlater.1 hcovered _ (by decide +kernel)
  · exact ⟨_, rfl, hremoved "b" _ rfl (by decide +kernel)⟩
  · obtain ⟨id, m, hm, -, howner, hroute, -⟩ := (hrun comings hstaffed).1 keyed _ rfl
    exact ⟨id, m, hm, howner, hroute⟩

end Cluster

end Switchboard

import Switchboard.Proofs.Cluster.Hooks
import Switchboard.Proofs.Cluster.Seating

namespace Switchboard

variable {log : List (Nat × HookRun)} {r : HookRun} {k n : Nat} {p : PartitionId}

def heard (log : List (Nat × HookRun)) (n : Nat) : List HookRun :=
  (log.filter (·.1 = n)).map (·.2)

def Exclusive (log : List (Nat × HookRun)) : Prop :=
  ∀ p n k, Holds (heard log n) p → Holds (heard log k) p → n = k

theorem holds_heard_concat : Holds (heard (log ++ [(n, r)]) k) p ↔
    n = k ∧ r.hook = .added p ∨
      Holds (heard log k) p ∧ (n = k → r.hook ≠ .removed p ∧ r.hook ≠ .stop) := by
  by_cases hn : n = k
  · subst hn
    have hheard : heard (log ++ [(n, r)]) n = heard log n ++ [r] := by simp [heard]
    rw [hheard, holds_concat]
    simp
  · have hheard : heard (log ++ [(n, r)]) k = heard log k := by simp [heard, hn]
    rw [hheard]
    simp [hn]

namespace Cluster

abbrev Roster := List (MemberId × Nat × Member)

def rosterOf (entries : List (MemberId × Seat)) : Roster := entries.map fun e => (e.1, e.2.badge)

def Numbered (R : Roster) : Prop :=
  ∀ a ∈ R, ∀ b ∈ R, a.1 = b.1 ↔ a.2.1 = b.2.1

/-- A log after which the slices hold what a table says, and never before two held the same. -/
structure Echoes (R : Roster) (t : Table) (log : List (Nat × HookRun)) : Prop where
  holders : ∀ n p, Holds (heard log n) p ↔ ∃ id m, (id, n, m) ∈ R ∧ t[p]? = some (some id)
  exclusive : ∀ past, past <+: log → Exclusive past

variable {R R' : Roster} {t t' : Table} {id : MemberId} {m : Member}

theorem Echoes.concat (h : Echoes R t log) (hR : Numbered R')
    (hholders : ∀ k p, Holds (heard (log ++ [(n, r)]) k) p ↔
      ∃ id m, (id, k, m) ∈ R' ∧ t'[p]? = some (some id)) :
    Echoes R' t' (log ++ [(n, r)]) where
  holders := hholders
  exclusive past hpast := by
    rcases List.prefix_concat_iff.1 hpast with rfl | hpast
    · intro p k k' hk hk'
      obtain ⟨id, m, hm, ht⟩ := (hholders k p).1 hk
      obtain ⟨id', m', hm', ht'⟩ := (hholders k' p).1 hk'
      rw [ht] at ht'
      cases ht'
      exact (hR _ hm _ hm').1 rfl
    · exact h.exclusive past hpast

theorem Echoes.remove (h : Echoes R t log) (hR : Numbered R) (hm : (id, n, m) ∈ R)
    (hp : t[p]? = some (some id)) (hr : r.hook = .removed p) :
    Echoes R (t.set p none) (log ++ [(n, r)]) := by
  refine h.concat hR fun k q => ?_
  rw [holds_heard_concat, h.holders, hr]
  by_cases hq : q = p
  · subst hq
    have hset : (t.set q none)[q]? = some none :=
      List.getElem?_set_self (List.getElem?_eq_some_iff.1 hp).1
    simp only [hset, reduceCtorEq, and_false, false_or, Option.some.injEq, exists_false, iff_false]
    rintro ⟨⟨id', m', hm', ht⟩, hk⟩
    rw [hp] at ht
    cases ht
    exact (hk ((hR _ hm _ hm').1 rfl)).1 rfl
  · rw [List.getElem?_set_ne (Ne.symm hq)]
    simp [Ne.symm hq]

theorem Echoes.add (h : Echoes R t log) (hR : Numbered R) (hm : (id, n, m) ∈ R)
    (hp : t[p]? = some none) (hr : r.hook = .added p) :
    Echoes R (t.set p (some id)) (log ++ [(n, r)]) := by
  refine h.concat hR fun k q => ?_
  rw [holds_heard_concat, h.holders, hr]
  by_cases hq : q = p
  · subst hq
    have hset : (t.set q (some id))[q]? = some (some id) :=
      List.getElem?_set_self (List.getElem?_eq_some_iff.1 hp).1
    simp only [hp, hset, Option.some.injEq, reduceCtorEq, and_false, exists_false, false_and,
      or_false, and_true]
    constructor
    · rintro rfl
      exact ⟨id, m, hm, rfl⟩
    · rintro ⟨id', m', hm', rfl⟩
      exact (hR _ hm _ hm').1 rfl
  · rw [List.getElem?_set_ne (Ne.symm hq)]
    simp [Ne.symm hq]

theorem Echoes.join (h : Echoes R t log) (hR : Numbered R')
    (hmem : ∀ x, x ∈ R' ↔ x = (id, n, m) ∨ x ∈ R) (hid : some id ∉ t)
    (hr : r.hook = .start) : Echoes R' t (log ++ [(n, r)]) := by
  refine h.concat hR fun k q => ?_
  rw [holds_heard_concat, h.holders, hr]
  simp only [reduceCtorEq, and_false, false_or, ne_eq, not_false_eq_true, and_self, implies_true,
    and_true, hmem]
  constructor
  · rintro ⟨id', m', hm', ht⟩
    exact ⟨id', m', Or.inr hm', ht⟩
  · rintro ⟨id', m', hnew | hm', ht⟩
    · cases hnew
      exact absurd (List.mem_of_getElem? ht) hid
    · exact ⟨id', m', hm', ht⟩

theorem Echoes.leave (h : Echoes R t log) (hR : Numbered R) (hm : (id, n, m) ∈ R)
    (hmem : ∀ x, x ∈ R' ↔ x ∈ R ∧ x.1 ≠ id) (hr : r.hook = .stop) :
    Echoes R' (t.map fun o => if o = some id then none else o) (log ++ [(n, r)]) := by
  have hR' : Numbered R' := fun a ha b hb => hR a ((hmem a).1 ha).1 b ((hmem b).1 hb).1
  refine h.concat hR' fun k q => ?_
  rw [holds_heard_concat, h.holders, hr]
  simp only [reduceCtorEq, and_false, false_or, ne_eq, not_true_eq_false, hmem,
    List.getElem?_map, Option.map_eq_some_iff]
  constructor
  · rintro ⟨⟨id', m', hm', ht⟩, hk⟩
    have hne : id' ≠ id := fun heq => hk ((hR _ hm _ hm').1 heq.symm)
    exact ⟨id', m', ⟨hm', hne⟩, some id', ht, by simp [hne]⟩
  · rintro ⟨id', m', ⟨hm', hne⟩, o, ht, ho⟩
    refine ⟨⟨id', m', hm', ?_⟩, fun hk => hne ((hR _ hm _ hm').2 hk).symm⟩
    split at ho
    · cases ho
    · exact ho ▸ ht

variable {c c' : Cluster} {seat : Seat} {ms : List Move}

theorem history_onMember (hs : Keyed.find? id c.seats = some seat)
    (f : Server → Server × List HookRun) :
    (c.onMember id f).history =
      c.history ++ (f seat.server).2.map fun r => (seat.number, r) := by
  simp [onMember, hs, record]

theorem mem_roster_of_find? (hs : Keyed.find? id c.seats = some seat) :
    (id, seat.number, seat.server.member) ∈ c.roster :=
  List.mem_map.2 ⟨_, Keyed.mem_of_find? hs, rfl⟩

theorem echoes_removePartition (he : Echoes c.roster t c.history) (hR : Numbered c.roster)
    (ha : Agrees t c.seats) (hs : Keyed.find? id c.seats = some seat)
    (hp : t[p]? = some (some id)) :
    Echoes c.roster (t.set p none) (c.onMember id (·.removePartition p)).history := by
  rw [history_onMember hs, (ha id seat hs).runs_remove hp]
  exact he.remove hR (mem_roster_of_find? hs) hp rfl

theorem echoes_addPartition (he : Echoes c.roster t c.history) (hR : Numbered c.roster)
    (ha : Agrees t c.seats) (hs : Keyed.find? id c.seats = some seat)
    (hp : t[p]? = some none) :
    Echoes c.roster (t.set p (some id)) (c.onMember id (·.addPartition p)).history := by
  rw [history_onMember hs, (ha id seat hs).runs_add (by simp [hp])]
  exact he.add hR (mem_roster_of_find? hs) hp rfl

/-- Servers stand as a table says, whether it is the one of the cluster already or still on the way
to it. -/
structure Standing (t : Table) (c : Cluster) : Prop where
  sorted : Keyed.Sorted c.seats
  agrees : Agrees t c.seats
  eligible : ∀ id, some id ∈ t → id ∈ c.dataIds

theorem Standing.removePartition (h : Standing t c) (hp : t[p]? = some (some id)) :
    Standing (t.set p none) (c.onMember id (·.removePartition p)) where
  sorted := sorted_onMember h.sorted ..
  agrees := agrees_removePartition h.agrees hp
  eligible other ho := by
    rw [dataIds_onMember h.sorted id fun _ => rfl]
    rcases List.mem_or_eq_of_mem_set ho with ho | ho
    · exact h.eligible other ho
    · cases ho

theorem Standing.addPartition (h : Standing t c) (hp : t[p]? = some none) (hid : id ∈ c.dataIds) :
    Standing (t.set p (some id)) (c.onMember id (·.addPartition p)) where
  sorted := sorted_onMember h.sorted ..
  agrees := agrees_addPartition h.agrees hp
  eligible other ho := by
    rw [dataIds_onMember h.sorted id fun _ => rfl]
    rcases List.mem_or_eq_of_mem_set ho with ho | ho
    · exact h.eligible other ho
    · exact Option.some.inj ho ▸ hid

theorem Standing.announce_keeps {P : Table → Cluster → Prop} {m : Move}
    (hstanding : ∀ {t c}, P t c → Standing t c)
    (hremove : ∀ {t c id p}, P t c → t[p]? = some (some id) →
      P (t.set p none) (c.onMember id (·.removePartition p)))
    (hadd : ∀ {t c id p}, P t c → t[p]? = some none → id ∈ c.dataIds →
      P (t.set p (some id)) (c.onMember id (·.addPartition p)))
    (h : P t c) (hm : t[m.partition]? = some m.source) (hd : m.destination ∈ c.dataIds) :
    P (t.set m.partition (some m.destination)) (c.announce m) := by
  have hboth := Cluster.announce_keeps (P := fun t c => P t c ∧ m.destination ∈ c.dataIds) (m := m)
    (fun {t c id} h hp => by
      refine ⟨hremove h.1 hp, ?_⟩
      rw [dataIds_onMember (hstanding h.1).sorted id fun _ => rfl]
      exact h.2)
    (fun {t c} h hp => by
      refine ⟨hadd h.1 hp h.2, ?_⟩
      rw [dataIds_onMember (hstanding h.1).sorted m.destination fun _ => rfl]
      exact h.2)
    ⟨h, hd⟩ hm
  exact hboth.1

theorem Standing.announce {m : Move} (h : Standing t c) (hm : t[m.partition]? = some m.source)
    (hd : m.destination ∈ c.dataIds) :
    Standing (t.set m.partition (some m.destination)) (c.announce m) :=
  Standing.announce_keeps id Standing.removePartition Standing.addPartition h hm hd

structure Attuned (t : Table) (c : Cluster) : Prop extends Standing t c where
  numbered : Numbered c.roster
  echoes : Echoes c.roster t c.history

theorem Attuned.removePartition (h : Attuned t c) (hp : t[p]? = some (some id)) :
    Attuned (t.set p none) (c.onMember id (·.removePartition p)) := by
  obtain ⟨seat, hs⟩ := find?_of_mem_dataIds h.sorted (h.eligible id (List.mem_of_getElem? hp))
  have hroster : (c.onMember id (·.removePartition p)).roster = c.roster :=
    roster_onMember h.sorted id fun _ => rfl
  refine ⟨h.toStanding.removePartition hp, hroster ▸ h.numbered, ?_⟩
  rw [hroster]
  exact echoes_removePartition h.echoes h.numbered h.agrees hs hp

theorem Attuned.addPartition (h : Attuned t c) (hp : t[p]? = some none) (hid : id ∈ c.dataIds) :
    Attuned (t.set p (some id)) (c.onMember id (·.addPartition p)) := by
  obtain ⟨seat, hs⟩ := find?_of_mem_dataIds h.sorted hid
  have hroster : (c.onMember id (·.addPartition p)).roster = c.roster :=
    roster_onMember h.sorted id fun _ => rfl
  refine ⟨h.toStanding.addPartition hp hid, hroster ▸ h.numbered, ?_⟩
  rw [hroster]
  exact echoes_addPartition h.echoes h.numbered h.agrees hs hp

theorem Attuned.announce {m : Move} (h : Attuned t c) (hm : t[m.partition]? = some m.source)
    (hd : m.destination ∈ c.dataIds) :
    Attuned (t.set m.partition (some m.destination)) (c.announce m) :=
  Standing.announce_keeps Attuned.toStanding Attuned.removePartition Attuned.addPartition h hm hd

theorem Attuned.announceAll (h : Attuned t c) (hw : Rewrites t ms t')
    (hd : ∀ m ∈ ms, m.destination ∈ c.dataIds) : Attuned t' (c.announceAll ms) := by
  induction ms generalizing c t with
  | nil =>
      cases hw
      exact h
  | cons m ms ih =>
      refine ih (h.announce hw.1 (hd m List.mem_cons_self)) hw.2 fun x hx => ?_
      rw [dataIds_announce h.sorted]
      exact hd x (List.mem_cons_of_mem m hx)

theorem Sound.numbered (h : Sound c) : Numbered c.roster := by
  intro a ha b hb
  obtain ⟨⟨id, seat⟩, he, rfl⟩ := List.mem_map.1 ha
  obtain ⟨⟨id', seat'⟩, he', rfl⟩ := List.mem_map.1 hb
  change id = id' ↔ seat.number = seat'.number
  constructor
  · rintro rfl
    rw [h.coherent.seat_unique he he']
  · intro hn
    have hdistinct : (c.allSeats.map (·.number)).Nodup := by
      simpa [badges, Function.comp_def, Seat.badge] using h.distinct
    have hsame : seat = seat' :=
      List.inj_on_of_nodup_map hdistinct (List.mem_append_left _ (List.mem_map_of_mem he))
        (List.mem_append_left _ (List.mem_map_of_mem he')) hn
    rw [← (h.coherent.serves he).member, hsame, (h.coherent.serves he').member]

abbrev Echoing (c : Cluster) : Prop := Echoes c.roster c.owners c.history

theorem echoing_rewriting (h : Sound c) (he : Echoing c) (hc : Rewriting c c') : Echoing c' := by
  cases hc with
  | moves t ms hw hd =>
      have hattuned : Attuned c.owners { c with owners := t } :=
        ⟨⟨h.coherent.sorted, h.coherent.agrees, h.coherent.eligible⟩, h.numbered, he⟩
      rw [Echoing, owners_announceAll]
      exact (hattuned.announceAll hw hd).echoes

theorem echoing_addMember {services : List (String × Service)} (h : Sound c) (he : Echoing c)
    (hc : c.addMember m services = .ok c') : Echoing c' := by
  have hsound : Sound c' := invariant_of_steps (changes_addMember hc) Sound.change h
  unfold addMember at hc
  split at hc
  · cases hc
  split at hc
  · cases hc
  next hm =>
  have hfree : Keyed.find? m.id c.seats = none := by
    simpa [Keyed.contains, Option.isSome_iff_ne_none] using hm
  cases hc
  have hp := (Keyed.insert_perm
    (⟨c.joined, { Server.new c.config.slice m services with status := .running }⟩ : Seat)
    hfree).map fun e => (e.1, e.2.badge)
  have hid : some m.id ∉ c.owners := by
    intro hid
    obtain ⟨seat, hs, -⟩ := (mem_dataIds h.coherent.sorted).1 (h.coherent.eligible _ hid)
    rw [hfree] at hs
    cases hs
  exact he.join hsound.numbered (fun x => hp.mem_iff.trans List.mem_cons) hid rfl

theorem shutdown_running {s : Server} (h : s.status = .running) :
    s.shutdown.2 = [⟨.stop, .terminating⟩] := by
  simp [Server.shutdown, h]

theorem echoing_removeMember {x : Member × Cluster} (h : Sound c) (he : Echoing c)
    (hc : c.removeMember id = .ok x) : Echoing x.2 := by
  unfold removeMember at hc
  split at hc
  · cases hc
  next seat hs =>
  have hleft : Sound ((c.without id seat).record seat.number seat.server.shutdown.2) :=
    (h.change (.leave id seat hs)).change (.hooks ..)
  have hserves := h.coherent.agrees id seat hs
  have hgone : Echoing ((c.without id seat).record seat.number seat.server.shutdown.2) := by
    rw [shutdown_running hserves.running]
    refine he.leave h.numbered (mem_roster_of_find? hs) (fun y => ?_) rfl
    change y ∈ (Keyed.erase id c.seats).map _ ↔ y ∈ c.seats.map _ ∧ y.1 ≠ id
    simp only [List.mem_map, Keyed.mem_erase h.coherent.sorted]
    constructor
    · rintro ⟨e, ⟨he, hne⟩, rfl⟩
      exact ⟨⟨e, he, rfl⟩, hne⟩
    · rintro ⟨⟨e, he, rfl⟩, hne⟩
      exact ⟨e, ⟨he, hne⟩, rfl⟩
  cases hc
  exact echoing_rewriting hleft hgone (rewriting_assignUnowned _)

theorem Echoes.leave_all {entries : List (MemberId × Seat)} (hs : Keyed.Sorted entries)
    (hR : Numbered (rosterOf entries)) (h : Echoes (rosterOf entries) t log) :
    ∃ t', Echoes [] t' (log ++ entries.map fun e => (e.2.number, ⟨.stop, .terminating⟩)) := by
  induction entries generalizing t log with
  | nil => exact ⟨t, by simpa [rosterOf] using h⟩
  | cons e rest ih =>
      obtain ⟨hlt, hrest⟩ := Keyed.sorted_cons.1 hs
      have hnumbered : Numbered (rosterOf rest) := fun a ha b hb =>
        hR a (List.mem_cons_of_mem _ ha) b (List.mem_cons_of_mem _ hb)
      have hmem (x : MemberId × Nat × Member) :
          x ∈ rosterOf rest ↔ x ∈ rosterOf (e :: rest) ∧ x.1 ≠ e.1 := by
        constructor
        · intro hx
          obtain ⟨f, hf, rfl⟩ := List.mem_map.1 hx
          exact ⟨List.mem_cons_of_mem _ hx, (hlt f hf).ne'⟩
        · rintro ⟨hx, hne⟩
          rcases List.mem_cons.1 hx with rfl | hx
          · exact absurd rfl hne
          · exact hx
      have hgone : Echoes (rosterOf rest) _ (log ++ [(e.2.number, ⟨.stop, .terminating⟩)]) :=
        h.leave hR List.mem_cons_self hmem rfl
      obtain ⟨t', ht'⟩ := ih hrest hnumbered hgone
      exact ⟨t', by simpa using ht'⟩

theorem history_foldl_retire (entries : List (MemberId × Seat)) (c : Cluster)
    (h : ∀ e ∈ entries, e.2.server.status = .running) :
    (entries.foldl retire c).history =
      c.history ++ entries.map fun e => (e.2.number, ⟨.stop, .terminating⟩) := by
  induction entries generalizing c with
  | nil => simp
  | cons e rest ih =>
      rw [List.foldl_cons, ih _ fun f hf => h f (List.mem_cons_of_mem e hf)]
      simp [retire, record, shutdown_running (h e List.mem_cons_self)]

theorem echoing_shutdown (h : Sound c) (he : Echoing c) : Echoing c.shutdown := by
  unfold shutdown
  split
  · obtain ⟨t', ht'⟩ := he.leave_all h.coherent.sorted h.numbered
    have hrunning : ∀ e ∈ c.seats, e.2.server.status = .running := fun e hmem =>
      (h.coherent.serves hmem).running
    have hhistory := history_foldl_retire c.seats
      { c with running := false, seats := [], owners := c.owners.map fun _ => none } hrunning
    obtain ⟨history, hfold⟩ := foldl_retire c.seats
      { c with running := false, seats := [], owners := c.owners.map fun _ => none }
    rw [hfold] at hhistory ⊢
    simp only at hhistory
    subst hhistory
    exact ⟨fun n p => by simpa [roster] using ht'.holders n p, ht'.exclusive⟩
  · exact he

theorem echoing_perform (h : Sound c) (he : Echoing c) (o : Operation) :
    Echoing (c.perform o) := by
  unfold perform
  split
  next c' hc =>
    cases o with
    | add m services => exact echoing_addMember h he hc
    | remove id =>
        obtain ⟨x, hr, rfl⟩ := attempt_remove hc
        exact echoing_removeMember h he hr
    | move p id => exact echoing_rewriting h he (rewriting_movePartition hc)
    | rebalance =>
        cases hc
        exact echoing_rewriting h he (rewriting_rebalance c)
    | shutdown =>
        cases hc
        exact echoing_shutdown h he
  next => exact he

theorem echoing_new (config : ClusterConfig) : Echoing (new config) where
  holders n p := by simp [new, heard, not_holds_nil, roster]
  exclusive past hpast := by
    obtain rfl := List.prefix_nil.1 hpast
    intro p n k hn
    exact absurd hn not_holds_nil

theorem sound_perform (h : Sound c) (o : Operation) : Sound (c.perform o) :=
  invariant_of_steps (changes_perform c o) Sound.change h

theorem echoing_performAll (h : Sound c) (he : Echoing c) (os : List Operation) :
    Sound (c.performAll os) ∧ Echoing (c.performAll os) := by
  induction os generalizing c with
  | nil => exact ⟨h, he⟩
  | cons o os ih => exact ih (sound_perform h o) (echoing_perform h he o)

structure Mirrored (c : Cluster) : Prop where
  exclusive : ∀ past, past <+: c.history → Exclusive past
  slices : ∀ id seat, (id, seat) ∈ c.seats →
    ∀ p, Holds (c.hooksOf seat.number) p ↔ c.ownerId? p = some id
  owners : ∀ p id, c.ownerId? p = some id →
    ∃ seat, (id, seat) ∈ c.seats ∧ Holds (c.hooksOf seat.number) p
  holders : ∀ n p, Holds (c.hooksOf n) p → ∃ id seat, (id, seat) ∈ c.seats ∧ seat.number = n

theorem Sound.mirrored (h : Sound c) (he : Echoing c) : Mirrored c := by
  have hslices (id : MemberId) (seat : Seat) (hm : (id, seat) ∈ c.seats) (p : PartitionId) :
      Holds (c.hooksOf seat.number) p ↔ c.ownerId? p = some id := by
    have hroster : (id, seat.number, seat.server.member) ∈ c.roster := List.mem_map_of_mem hm
    rw [ownerId?_eq_some]
    refine (he.holders seat.number p).trans ⟨?_, fun ho => ⟨id, _, hroster, ho⟩⟩
    rintro ⟨id', m', hm', ho⟩
    have hid : id = id' := (h.numbered _ hroster _ hm').2 rfl
    exact hid ▸ ho
  refine ⟨he.exclusive, hslices, fun p id ho => ?_, fun n p hn => ?_⟩
  · obtain ⟨seat, hm, -, -⟩ := h.coherent.owner_seat ho
    exact ⟨seat, hm, (hslices id seat hm p).2 ho⟩
  · obtain ⟨id, m, hm, -⟩ := (he.holders n p).1 hn
    obtain ⟨⟨id', seat⟩, hs, heq⟩ := List.mem_map.1 hm
    exact ⟨id', seat, hs, congrArg (·.2.1) heq⟩

theorem mirrored_performAll {config : ClusterConfig} (h : create config = .ok c)
    (os : List Operation) : Mirrored (c.performAll os) := by
  obtain ⟨rfl, hpos⟩ := create_eq h
  obtain ⟨hsound, he⟩ := echoing_performAll (sound_new hpos) (echoing_new config) os
  exact hsound.mirrored he

def exchange : List Operation :=
  [.add ⟨"a", "x", false⟩ [], .add ⟨"b", "y", false⟩ [], .move 1 "a", .remove "a",
    .add ⟨"a", "x", false⟩ [], .rebalance]

theorem mirrored_after_exchange :
    create ⟨2, "s"⟩ = .ok (new ⟨2, "s"⟩) ∧ Mirrored ((new ⟨2, "s"⟩).performAll exchange) := by
  have hnew : create ⟨2, "s"⟩ = .ok (new ⟨2, "s"⟩) := rfl
  exact ⟨hnew, mirrored_performAll hnew exchange⟩

example : ((new ⟨2, "s"⟩).performAll exchange).history.map (fun e => (e.1, e.2.hook.display)) =
    [(0, "start"), (1, "start"), (0, "+1"), (0, "stop"), (1, "+0"), (1, "+1"), (2, "start"),
      (1, "-0"), (2, "+0")] := by decide

end Cluster

end Switchboard

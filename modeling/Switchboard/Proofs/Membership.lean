import Mathlib.Data.Set.Card
import Switchboard.Proofs.Keyed
import Switchboard.Registry

namespace Switchboard

inductive Report where
  | register (m : Member)
  | unregister (id : MemberId)
  | status (id : MemberId) (s : MemberStatus)
  deriving DecidableEq, Repr

namespace Report

def told (id : MemberId) (known : Option MemberInfo) : Report → Option MemberInfo
  | register m => if m.id = id then some (.ofMember m) else known
  | unregister i => if i = id then none else known
  | status i s => if i = id then known.map fun k => { k with status := s } else known

def status? (id : MemberId) : Report → Option MemberStatus
  | status i s => if i = id then some s else none
  | _ => none

end Report

def lastStatus? (id : MemberId) (since : List Report) : Option MemberStatus :=
  (since.filterMap (Report.status? id)).getLast?

structure LastRegistered (history : List Report) (m : Member) (since : List Report) : Prop where
  split : ∃ before, history = before ++ .register m :: since
  last : ∀ n, .register n ∈ since → n.id ≠ m.id

def Present (history : List Report) (m : Member) : Prop :=
  ∃ since, LastRegistered history m since ∧ .unregister m.id ∉ since

def Available (history : List Report) (m : Member) : Prop :=
  ∃ since, LastRegistered history m since ∧ .unregister m.id ∉ since ∧
    ∀ s ∈ lastStatus? m.id since, s = .active

variable {history since : List Report} {id : MemberId} {m : Member} {i : MemberInfo}
  {known : Option MemberInfo} {e : Report}

theorem lastStatus?_concat (id : MemberId) (since : List Report) (e : Report) :
    lastStatus? id (since ++ [e]) = (e.status? id).or (lastStatus? id since) := by
  cases he : e.status? id <;> simp [lastStatus?, he]

namespace Report

theorem told_since (hr : ∀ n, .register n ∈ since → n.id ≠ id) (hu : .unregister id ∉ since)
    (i : MemberInfo) : since.foldl (told id) (some i) =
      some { i with status := (lastStatus? id since).getD i.status } := by
  induction since using List.reverseRecOn with
  | nil => rfl
  | append_singleton since e ih =>
      have hrest := ih (fun n hn => hr n (List.mem_append_left _ hn))
        fun hmem => hu (List.mem_append_left _ hmem)
      have he : e ∈ since ++ [e] := by simp
      rw [List.foldl_concat, hrest, lastStatus?_concat]
      cases e with
      | register n => simp [told, status?, hr n he]
      | unregister j =>
          have hj : j ≠ id := by
            rintro rfl
            exact hu he
          simp [told, status?, hj]
      | status j s => by_cases hj : j = id <;> simp [told, status?, hj]

theorem told_gone (hr : ∀ n, .register n ∈ since → n.id ≠ id)
    (hk : known = none ∨ .unregister id ∈ since) : since.foldl (told id) known = none := by
  induction since generalizing known with
  | nil => simpa using hk
  | cons e since ih =>
      refine ih (fun n hn => hr n (List.mem_cons_of_mem _ hn)) ?_
      rcases hk with rfl | hk
      · cases e with
        | register n => simp [told, hr n List.mem_cons_self]
        | unregister j | status j s => simp [told]
      · rcases List.mem_cons.1 hk with rfl | hk
        · simp [told]
        · exact Or.inr hk

end Report

theorem LastRegistered.told (h : LastRegistered history m since) (known : Option MemberInfo) :
    history.foldl (Report.told m.id) known =
      if .unregister m.id ∈ since then none
      else some ⟨m, (lastStatus? m.id since).getD .active⟩ := by
  obtain ⟨before, rfl⟩ := h.split
  rw [List.foldl_append, List.foldl_cons, Report.told, if_pos rfl]
  split
  · next hu => exact Report.told_gone h.last (Or.inr hu)
  · next hu => exact Report.told_since h.last hu (.ofMember m)

theorem lastRegistered_or_never (history : List Report) (id : MemberId) :
    (∃ m since, LastRegistered history m since ∧ m.id = id) ∨
      ∀ n, .register n ∈ history → n.id ≠ id := by
  induction history with
  | nil => simp
  | cons e history ih =>
      rcases ih with ⟨m, since, ⟨⟨before, rfl⟩, hlast⟩, hid⟩ | hnever
      · exact Or.inl ⟨m, since, ⟨⟨e :: before, rfl⟩, hlast⟩, hid⟩
      · by_cases he : ∃ m, e = .register m ∧ m.id = id
        · obtain ⟨m, rfl, hid⟩ := he
          exact Or.inl ⟨m, history, ⟨⟨[], rfl⟩, fun n hn => hid ▸ hnever n hn⟩, hid⟩
        · refine Or.inr fun n hn hid => ?_
          rcases List.mem_cons.1 hn with rfl | hn
          · exact he ⟨n, rfl, hid⟩
          · exact hnever n hn hid

theorem encard_eq_length {α : Type} {p : α → Prop} {l : List α} (hd : l.Nodup)
    (h : ∀ a, p a ↔ a ∈ l) : {a | p a}.encard = l.length := by
  classical
  have hl : {a | p a} = (l.toFinset : Set α) := by
    ext a
    simp [h]
  rw [hl, Set.encard_coe_eq_coe_finsetCard, List.toFinset_card_of_nodup hd]

namespace Registry

def after (r : Registry) : Report → Registry
  | .register m => r.register m
  | .unregister id => r.unregister id
  | .status id s => r.updateStatus id s

def afterAll (r : Registry) (history : List Report) : Registry := history.foldl after r

structure Filed (r : Registry) : Prop where
  sorted : Keyed.Sorted r.members
  named : ∀ id i, r.get? id = some i → i.member.id = id

variable {r : Registry}

theorem get?_after (h : Keyed.Sorted r.members) (e : Report) (id : MemberId) :
    (r.after e).get? id = e.told id (r.get? id) := by
  cases e with
  | register m =>
      by_cases hid : m.id = id
      · subst hid
        rw [Report.told, if_pos rfl]
        exact get?_register_self r m
      · rw [Report.told, if_neg hid]
        exact get?_register_of_ne r (Ne.symm hid)
  | unregister i =>
      by_cases hid : i = id
      · subst hid
        rw [Report.told, if_pos rfl]
        exact Keyed.find?_erase_self h
      · rw [Report.told, if_neg hid]
        exact Keyed.find?_erase_of_ne (Ne.symm hid) r.members
  | status i s =>
      by_cases hid : i = id
      · subst hid
        rw [Report.told, if_pos rfl]
        exact get?_updateStatus_self r i s
      · rw [Report.told, if_neg hid]
        exact Keyed.find?_modify_of_ne (Ne.symm hid) _ r.members

theorem filed_empty : empty.Filed where
  sorted := Keyed.sorted_nil
  named _ _ h := by cases h

theorem Filed.after (h : r.Filed) (e : Report) : (r.after e).Filed where
  sorted := by
    cases e with
    | register m => exact Keyed.sorted_insert h.sorted
    | unregister i => exact Keyed.sorted_erase i h.sorted
    | status i s => exact Keyed.sorted_modify i _ h.sorted
  named id i hi := by
    rw [get?_after h.sorted] at hi
    cases e with
    | register m =>
        simp only [Report.told] at hi
        split at hi
        · next hid =>
            cases hi
            exact hid
        · exact h.named id i hi
    | unregister j =>
        simp only [Report.told] at hi
        split at hi
        · cases hi
        · exact h.named id i hi
    | status j s =>
        simp only [Report.told] at hi
        split at hi
        · obtain ⟨k, hk, rfl⟩ := Option.map_eq_some_iff.1 hi
          exact h.named id k hk
        · exact h.named id i hi

theorem Filed.afterAll (h : r.Filed) (history : List Report) : (r.afterAll history).Filed := by
  induction history generalizing r with
  | nil => exact h
  | cons e history ih => exact ih (h.after e)

theorem get?_afterAll (h : r.Filed) (history : List Report) (id : MemberId) :
    (r.afterAll history).get? id = history.foldl (Report.told id) (r.get? id) := by
  induction history generalizing r with
  | nil => rfl
  | cons e history ih =>
      rw [afterAll, List.foldl_cons, List.foldl_cons, ← get?_after h.sorted]
      exact ih (h.after e)

theorem get?_eq_some_iff : (empty.afterAll history).get? id = some i ↔
    ∃ since, LastRegistered history i.member since ∧ i.member.id = id ∧ .unregister id ∉ since ∧
      i.status = (lastStatus? id since).getD .active := by
  have hfold := get?_afterAll filed_empty history id
  constructor
  · intro hi
    rw [hfold] at hi
    rcases lastRegistered_or_never history id with ⟨m, since, h, rfl⟩ | hnever
    · rw [h.told] at hi
      split at hi
      · cases hi
      · next hu =>
          cases hi
          exact ⟨since, h, rfl, hu, rfl⟩
    · cases (Report.told_gone hnever (Or.inl rfl)).symm.trans hi
  · rintro ⟨since, h, rfl, hu, hs⟩
    rw [hfold, h.told, if_neg hu, ← hs]

theorem present_iff : (∃ i, (empty.afterAll history).get? id = some i ∧ i.member = m) ↔
    Present history m ∧ m.id = id := by
  simp only [get?_eq_some_iff]
  constructor
  · rintro ⟨i, ⟨since, h, rfl, hu, -⟩, rfl⟩
    exact ⟨⟨since, h, hu⟩, rfl⟩
  · rintro ⟨⟨since, h, hu⟩, rfl⟩
    exact ⟨⟨m, (lastStatus? m.id since).getD .active⟩, ⟨since, h, rfl, hu, rfl⟩, rfl⟩

theorem getD_active {o : Option MemberStatus} :
    o.getD .active = .active ↔ ∀ s ∈ o, s = .active := by
  cases o <;> simp

theorem available_iff : (∃ i, (empty.afterAll history).get? id = some i ∧ i.member = m ∧
    i.isAvailable = true) ↔ Available history m ∧ m.id = id := by
  simp only [get?_eq_some_iff, MemberInfo.isAvailable, decide_eq_true_eq]
  constructor
  · rintro ⟨i, ⟨since, h, rfl, hu, hs⟩, rfl, hi⟩
    exact ⟨⟨since, h, hu, getD_active.1 (hs.symm.trans hi)⟩, rfl⟩
  · rintro ⟨⟨since, h, hu, hs⟩, rfl⟩
    exact ⟨⟨m, _⟩, ⟨since, h, rfl, hu, rfl⟩, rfl, getD_active.2 hs⟩

theorem Filed.mem_alive (h : r.Filed) :
    m ∈ r.alive ↔ ∃ i, r.get? m.id = some i ∧ i.member = m ∧ i.isAvailable = true := by
  simp only [alive, Keyed.values, List.mem_map, List.mem_filter]
  constructor
  · rintro ⟨i, ⟨⟨⟨k, _⟩, he, rfl⟩, hi⟩, rfl⟩
    have hfind : r.get? k = some _ := Keyed.find?_of_mem h.sorted he
    exact ⟨_, h.named k _ hfind ▸ hfind, rfl, hi⟩
  · rintro ⟨i, hfind, rfl, hi⟩
    exact ⟨i, ⟨⟨_, Keyed.mem_of_find? hfind, rfl⟩, hi⟩, rfl⟩

theorem Filed.alive_ordered (h : r.Filed) : (r.alive.map Member.id).Pairwise (· < ·) := by
  have hentries : r.members.Pairwise fun a b => a.2.member.id < b.2.member.id := by
    refine List.Pairwise.imp_of_mem (fun {a b} ha hb hlt => ?_) h.sorted
    rw [h.named a.1 a.2 (Keyed.find?_of_mem h.sorted ha),
      h.named b.1 b.2 (Keyed.find?_of_mem h.sorted hb)]
    exact hlt
  have hvalues : (Keyed.values r.members).Pairwise fun i j => i.member.id < j.member.id :=
    List.pairwise_map.2 hentries
  exact List.pairwise_map.2 (List.pairwise_map.2 (hvalues.filter _))

theorem contains_iff : r.contains id = true ↔ ∃ m i, r.get? id = some i ∧ i.member = m := by
  simp [contains, Keyed.contains, get?, Option.isSome_iff_exists]

theorem Filed.encard_present (h : r.Filed) : {id | r.contains id = true}.encard = r.count := by
  have hnodup : (Keyed.names r.members).Nodup :=
    List.pairwise_map.2 (h.sorted.imp fun hlt => hlt.ne)
  have hmem (id : MemberId) : r.contains id = true ↔ id ∈ Keyed.names r.members := by
    simp [contains, Keyed.contains, Option.isSome_iff_exists, Keyed.names,
      ← Keyed.mem_iff_find? h.sorted]
  rw [encard_eq_length hnodup hmem, Keyed.names, List.length_map, count]

theorem Filed.encard_alive (h : r.Filed) :
    {id | ∃ m ∈ r.alive, m.id = id}.encard = r.activeCount := by
  have hnodup : (r.alive.map Member.id).Nodup := h.alive_ordered.imp fun hlt => hlt.ne
  rw [encard_eq_length hnodup fun id => List.mem_map.symm, List.length_map, activeCount_eq]

structure Shows (history : List Report) (r : Registry) : Prop where
  present : ∀ id, r.contains id = true ↔ ∃ m, Present history m ∧ m.id = id
  carried : ∀ id m, (∃ i, r.get? id = some i ∧ i.member = m) ↔ Present history m ∧ m.id = id
  available : ∀ id m, (∃ i, r.get? id = some i ∧ i.member = m ∧ i.isAvailable = true) ↔
    Available history m ∧ m.id = id
  alive : ∀ m, m ∈ r.alive ↔ Available history m
  ordered : (r.alive.map Member.id).Pairwise (· < ·)
  data : (dataMembers r.alive).Sublist r.alive ∧
    ∀ m, m ∈ dataMembers r.alive ↔ Available history m ∧ m.lite = false
  count : {id | ∃ m, Present history m ∧ m.id = id}.encard = r.count
  active : {id | ∃ m, Available history m ∧ m.id = id}.encard = r.activeCount

theorem shows_afterAll (history : List Report) : Shows history (empty.afterAll history) := by
  have hfiled := filed_empty.afterAll history
  have halive (m : Member) : m ∈ (empty.afterAll history).alive ↔ Available history m := by
    rw [hfiled.mem_alive, available_iff, and_iff_left rfl]
  have hpresent (id : MemberId) : (empty.afterAll history).contains id = true ↔
      ∃ m, Present history m ∧ m.id = id := by
    simp only [contains_iff, present_iff]
  exact {
    present := hpresent
    carried := fun id m => present_iff
    available := fun id m => available_iff
    alive := halive
    ordered := hfiled.alive_ordered
    data := ⟨List.filter_sublist, fun m => by rw [mem_dataMembers, halive]⟩
    count := by simpa only [hpresent] using hfiled.encard_present
    active := by simpa only [halive] using hfiled.encard_alive }

/-- A registry shows what is told by the last registrations and by what was reported since. A
registration makes all forgotten that was reported of its id before, and a status of an id that is
not there is as if it had not been reported. -/
theorem history_shown (history : List Report) :
    Shows history (empty.afterAll history) ∧
      (∀ earlier m, (empty.afterAll (earlier ++ .register m :: history)).get? m.id =
        (empty.afterAll (.register m :: history)).get? m.id) ∧
      ∀ id s later, (∀ m, Present history m → m.id ≠ id) →
        empty.afterAll (history ++ .status id s :: later) = empty.afterAll (history ++ later) := by
  refine ⟨shows_afterAll history, fun earlier m => ?_, fun id s later habsent => ?_⟩
  · simp only [get?_afterAll filed_empty, List.foldl_append, List.foldl_cons, Report.told, if_pos]
  · have hnone : (empty.afterAll history).get? id = none := by
      rw [Option.eq_none_iff_forall_ne_some]
      intro i hi
      obtain ⟨hpresent, hid⟩ := present_iff.1 ⟨i, hi, rfl⟩
      exact habsent _ hpresent hid
    have hsame : (empty.afterAll history).updateStatus id s = empty.afterAll history :=
      congrArg Registry.mk (Keyed.modify_of_find?_none hnone _)
    have hstep : (empty.afterAll history).after (.status id s) = empty.afterAll history := hsame
    unfold afterAll at hstep ⊢
    rw [List.foldl_append, List.foldl_append, List.foldl_cons, hstep]

def returning : List Report :=
  [.register ⟨"m2", "b:1", false⟩, .register ⟨"m1", "a:1", false⟩, .status "m1" .degraded,
    .unregister "m2", .register ⟨"m1", "a:2", true⟩]

theorem history_shown_returning :
    (∀ m, Present returning m → m.id ≠ "m2") ∧
      (empty.afterAll (returning ++ [.status "m2" .degraded])).alive = [⟨"m1", "a:2", true⟩] ∧
      Shows returning (empty.afterAll returning) := by
  obtain ⟨hshows, -, hidle⟩ := history_shown returning
  have habsent : ∀ m, Present returning m → m.id ≠ "m2" := by
    intro m hm hid
    have hcontains := (hshows.present "m2").2 ⟨m, hm, hid⟩
    revert hcontains
    decide
  refine ⟨habsent, ?_, hshows⟩
  rw [hidle "m2" .degraded [] habsent]
  decide

end Registry

end Switchboard

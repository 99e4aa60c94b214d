import Mathlib.Data.List.ReduceOption
import Switchboard.Proofs.Dispatch.Turns
import Switchboard.Proofs.Rotation

namespace Switchboard

variable {view members : List Member} {views : List (List Member)} {k : Cursor} {n : Nat}
  {asked : List (List Member × Call)}

namespace RoutingPolicy

def answers (p : RoutingPolicy) :
    Cursor → List (List Member × Call) → List (Except PolicyError Member)
  | _, [] => []
  | k, (view, call) :: asked =>
      (p.choose view call k).1 :: p.answers (p.choose view call k).2 asked

def picks (answers : List (Except PolicyError Member)) : List Member :=
  answers.filterMap Except.toOption

def answerFor : Option Member → Except PolicyError Member
  | some m => .ok m
  | none => .error (.noMembers roundRobin.name)

theorem choose_roundRobin_eq (view : List Member) (call : Call) (k : Cursor) :
    roundRobin.choose view call k = (answerFor (memberAt? view k.toNat), turned view k) := by
  rw [choose_roundRobin]
  cases hs : populated view with
  | true =>
      obtain ⟨m, hm⟩ := memberAt?_of_populated hs k.toNat
      simp only [hm, answerFor, turned, hs, if_true]
  | false => simp [memberAt?_of_unpopulated hs, answerFor, turned, hs]

theorem answers_roundRobin (k : Cursor) (asked : List (List Member × Call)) :
    roundRobin.answers k asked = (turns k (asked.map Prod.fst)).map answerFor := by
  induction asked generalizing k with
  | nil => rfl
  | cons x asked ih =>
      obtain ⟨view, call⟩ := x
      rw [answers, choose_roundRobin_eq, ih]
      rfl

theorem picks_answerFor (targets : List (Option Member)) :
    picks (targets.map answerFor) = targets.reduceOption := by
  have hsome : Except.toOption ∘ answerFor = id := by
    funext target
    cases target <;> rfl
  rw [picks, List.filterMap_map, hsome]
  rfl

end RoutingPolicy

theorem getElem?_turns (h : views[n]? = some view) (k : Cursor) :
    ∃ place, (turns k views)[n]? = some (memberAt? view place) := by
  induction views generalizing k n with
  | nil => cases h
  | cons first views ih =>
      cases n with
      | zero =>
          cases h
          exact ⟨k.toNat, rfl⟩
      | succ n => exact ih h (turned first k)

theorem turns_populated (k : Cursor) (views : List (List Member)) :
    (turns k (views.filter populated)).reduceOption = (turns k views).reduceOption := by
  induction views generalizing k with
  | nil => rfl
  | cons view views ih =>
      cases hs : populated view with
      | true =>
          obtain ⟨m, hm⟩ := memberAt?_of_populated hs k.toNat
          rw [List.filter_cons_of_pos hs, turns, turns, hm, List.reduceOption_cons_of_some,
            List.reduceOption_cons_of_some, ih]
      | false =>
          rw [List.filter_cons_of_neg (by simp [hs]), ih, turns, memberAt?_of_unpopulated hs,
            List.reduceOption_cons_of_none, turned, hs]
          rfl

theorem turns_around (h : ∀ view ∈ views, dataMembers view = [] ∨ dataMembers view = members)
    (hk : k.toNat + views.countP populated < 2 ^ 64) :
    (turns k views).reduceOption = around members k.toNat (views.countP populated) := by
  induction views generalizing k with
  | nil => rfl
  | cons view views ih =>
      have hrest := fun v hv => h v (List.mem_cons_of_mem view hv)
      cases hs : populated view with
      | false =>
          rw [List.countP_cons_of_neg (by simp [hs])] at hk ⊢
          rw [turns, memberAt?_of_unpopulated hs, List.reduceOption_cons_of_none, turned, hs]
          exact ih hrest hk
      | true =>
          have hview : dataMembers view = members := by
            refine (h view (List.mem_cons_self ..)).resolve_left fun hnil => ?_
            rw [populated, hnil] at hs
            cases hs
          have hne : members ≠ [] := by
            rintro rfl
            rw [populated, hview] at hs
            cases hs
          rw [List.countP_cons_of_pos hs] at hk ⊢
          obtain ⟨m, hm, hsucc⟩ := around_succ hne k.toNat (views.countP populated)
          have hnext : (k + 1).toNat = k.toNat + 1 := by
            rw [UInt64.toNat_add]
            exact Nat.mod_eq_of_lt (by simp; omega)
          have hturn : memberAt? view k.toNat = some m := by rw [memberAt?, hview, hm]
          rw [turns, hturn, List.reduceOption_cons_of_some, turned, hs, if_pos rfl,
            ih hrest (by rw [hnext]; omega), hsucc, hnext]

structure GoesAround (members picked : List Member) : Prop where
  even : ∀ m ∈ members, picked.count m = picked.length / members.length ∨
    picked.count m = (picked.length + members.length - 1) / members.length
  round : ∀ j, j + members.length ≤ picked.length →
    ((picked.drop j).take members.length).Nodup ∧
      ∃ s, (picked.drop j).take members.length = members.rotate s

theorem goesAround_nil (members : List Member) : GoesAround members [] := by
  refine ⟨fun m hm => Or.inl (Nat.zero_div _).symm, fun j hj => ?_⟩
  obtain rfl : members = [] := by
    rw [List.length_nil] at hj
    exact List.eq_nil_of_length_eq_zero (by omega)
  exact ⟨by simp, 0, by simp⟩

theorem goesAround_around (h : members.Nodup) (hne : members ≠ []) (c k : Nat) :
    GoesAround members (around members c k) := by
  have hlength := length_around hne c k
  refine ⟨fun m hm => ?_, fun j hj => ?_⟩
  · rw [hlength]
    exact count_around h hm c k
  · rw [round_around (hlength ▸ hj)]
    exact ⟨List.nodup_rotate.2 h, _, rfl⟩

theorem turns_between (before stretch after : List (List Member)) :
    ((turns 0 (before ++ stretch ++ after)).drop before.length).take stretch.length =
      turns (UInt64.ofNat (before.countP populated)) stretch := by
  have hbefore := length_turns 0 before
  rw [List.append_assoc, turns_append, turns_append, UInt64.zero_add, ← hbefore, List.drop_left,
    ← length_turns (UInt64.ofNat (before.countP populated)) stretch, List.take_left]

theorem populated_eq_false : populated view = false ↔ dataMembers view = [] := by
  simp [populated]

theorem mem_of_memberAt? {m : Member} (h : memberAt? view n = some m) :
    m ∈ view ∧ m.lite = false :=
  mem_dataMembers.1 (List.mem_of_getElem? h)

namespace RoutingPolicy

theorem answers_between {before stretch after : List (List Member × Call)}
    (h : asked = before ++ stretch ++ after) :
    ((roundRobin.answers 0 asked).drop before.length).take stretch.length =
      (turns (UInt64.ofNat ((before.map Prod.fst).countP populated))
        (stretch.map Prod.fst)).map answerFor := by
  have hturns := turns_between (before.map Prod.fst) (stretch.map Prod.fst) (after.map Prod.fst)
  rw [List.length_map, List.length_map] at hturns
  rw [answers_roundRobin, h, List.map_append, List.map_append, ← List.map_drop, ← List.map_take,
    hturns]

theorem answer_roundRobin {call : Call} (h : asked[n]? = some (view, call)) :
    ((roundRobin.answers 0 asked)[n]? = some (Except.error (PolicyError.noMembers "round-robin")) ↔
        dataMembers view = []) ∧
      (dataMembers view ≠ [] → ∃ m ∈ view, m.lite = false ∧
        (roundRobin.answers 0 asked)[n]? = some (Except.ok m)) := by
  have hview : (asked.map Prod.fst)[n]? = some view := by rw [List.getElem?_map, h]; rfl
  obtain ⟨place, hturn⟩ := getElem?_turns hview 0
  rw [answers_roundRobin, List.getElem?_map, hturn, Option.map_some]
  cases hs : populated view with
  | false =>
      have hnil := populated_eq_false.1 hs
      rw [memberAt?_of_unpopulated hs]
      exact ⟨⟨fun _ => hnil, fun _ => rfl⟩, fun hne => absurd hnil hne⟩
  | true =>
      obtain ⟨m, hm⟩ := memberAt?_of_populated hs place
      obtain ⟨hmem, hlite⟩ := mem_of_memberAt? hm
      rw [hm]
      refine ⟨⟨fun herror => ?_, fun hnil => ?_⟩, fun _ => ⟨m, hmem, hlite, rfl⟩⟩
      · cases herror
      · rw [populated_eq_false.2 hnil] at hs
        cases hs

theorem goesAround_between {before stretch after : List (List Member × Call)}
    (h : asked = before ++ stretch ++ after) (hviews : ∀ x ∈ asked, x.1.Nodup)
    (hlength : asked.length < 2 ^ 64)
    (hstretch : ∀ x ∈ stretch, dataMembers x.1 = [] ∨ dataMembers x.1 = members) :
    GoesAround members
      (picks (((roundRobin.answers 0 asked).drop before.length).take stretch.length)) := by
  have hplaces : (before.map Prod.fst).countP populated +
      (stretch.map Prod.fst).countP populated < 2 ^ 64 := by
    have hb := List.countP_le_length (p := populated) (l := before.map Prod.fst)
    have hs := List.countP_le_length (p := populated) (l := stretch.map Prod.fst)
    rw [List.length_map] at hb hs
    rw [h, List.length_append, List.length_append] at hlength
    omega
  have hcursor : (UInt64.ofNat ((before.map Prod.fst).countP populated)).toNat =
      (before.map Prod.fst).countP populated :=
    UInt64.toNat_ofNat_of_lt' (Nat.lt_of_le_of_lt (Nat.le_add_right ..) hplaces)
  have hsame : ∀ view ∈ stretch.map Prod.fst,
      dataMembers view = [] ∨ dataMembers view = members := by
    simpa using hstretch
  rw [answers_between h, picks_answerFor, turns_around hsame (by rw [hcursor]; exact hplaces)]
  rcases Nat.eq_zero_or_pos ((stretch.map Prod.fst).countP populated) with hnone | hsome
  · rw [hnone]
    exact goesAround_nil members
  · obtain ⟨view, hview, hs⟩ := List.countP_pos_iff.1 hsome
    have hne : dataMembers view ≠ [] := fun hnil => by
      rw [populated_eq_false.2 hnil] at hs
      cases hs
    obtain rfl := (hsame view hview).resolve_left hne
    obtain ⟨x, hx, rfl⟩ := List.mem_map.1 hview
    exact goesAround_around ((hviews x (by simp [h, hx])).filter _) hne _ _

theorem round_robin_fair (asked : List (List Member × Call)) (hviews : ∀ x ∈ asked, x.1.Nodup)
    (hlength : asked.length < 2 ^ 64) :
    (∀ (n : Nat) (view : List Member) (call : Call), asked[n]? = some (view, call) →
      ((roundRobin.answers 0 asked)[n]? =
          some (Except.error (PolicyError.noMembers "round-robin")) ↔ dataMembers view = []) ∧
      (dataMembers view ≠ [] → ∃ m ∈ view, m.lite = false ∧
        (roundRobin.answers 0 asked)[n]? = some (Except.ok m))) ∧
      picks (roundRobin.answers 0 asked) =
        picks (roundRobin.answers 0 (asked.filter fun x => populated x.1)) ∧
      ∀ before stretch after members, asked = before ++ stretch ++ after →
        (∀ x ∈ stretch, dataMembers x.1 = [] ∨ dataMembers x.1 = members) →
          GoesAround members
            (picks (((roundRobin.answers 0 asked).drop before.length).take stretch.length)) := by
  refine ⟨fun n view call h => answer_roundRobin h, ?_,
    fun before stretch after members h hstretch => goesAround_between h hviews hlength hstretch⟩
  rw [answers_roundRobin, answers_roundRobin, picks_answerFor, picks_answerFor,
    ← turns_populated, List.filter_map]
  rfl

def asking (views : List (List Member)) : List (List Member × Call) :=
  views.map fun view => (view, ⟨"s", "S", "m", [], [], none⟩)

def trio : List Member := [⟨"a", "x", false⟩, ⟨"b", "y", false⟩, ⟨"c", "z", false⟩]

def early : List (List Member × Call) := asking [trio.take 2, trio.take 1]

def late : List (List Member × Call) := asking [trio, trio, [⟨"d", "w", true⟩], trio, [], trio]

theorem round_robin_fair_late :
    (∀ x ∈ early ++ late ++ [], x.1.Nodup) ∧ (early ++ late ++ []).length < 2 ^ 64 ∧
      (roundRobin.answers 0 (early ++ late ++ []))[4]? =
        some (Except.error (PolicyError.noMembers "round-robin")) ∧
      (picks (((roundRobin.answers 0 (early ++ late ++ [])).drop early.length).take
        late.length)).map Member.id = ["c", "a", "b", "c"] ∧
      GoesAround trio
        (picks (((roundRobin.answers 0 (early ++ late ++ [])).drop early.length).take
          late.length)) := by
  have hviews : ∀ x ∈ early ++ late ++ [], x.1.Nodup := by decide
  have hlength : (early ++ late ++ []).length < 2 ^ 64 := by decide
  obtain ⟨hanswers, -, hstretch⟩ := round_robin_fair (early ++ late ++ []) hviews hlength
  obtain ⟨hfails, -⟩ := hanswers 4 [⟨"d", "w", true⟩] ⟨"s", "S", "m", [], [], none⟩ rfl
  exact ⟨hviews, hlength, hfails.2 rfl, rfl, hstretch early late [] trio rfl (by decide)⟩

end RoutingPolicy

end Switchboard

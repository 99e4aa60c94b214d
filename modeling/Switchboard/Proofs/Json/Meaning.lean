import Switchboard.Proofs.Json.Canonical

namespace Switchboard.Json

/-- Objects are maps, strings are sequences of code points, and integers are exact. -/
inductive Meaning where
  | null
  | bool (b : Bool)
  | int (n : Int)
  | double (bits : UInt64)
  | str (points : List Char)
  | arr (items : List Meaning)
  | obj (entries : String → Option Meaning)

mutual

def meaning : Json → Meaning
  | .null => .null
  | .bool b => .bool b
  | .int n => .int n
  | .double bits => .double bits
  | .str s => .str s.toList
  | .arr items => .arr (meaningItems items)
  | .obj entries => .obj (meaningEntries entries)

def meaningItems : List Json → List Meaning
  | [] => []
  | v :: vs => v.meaning :: meaningItems vs

def meaningEntries : List (String × Json) → String → Option Meaning
  | [], _ => none
  | (k, v) :: es, name =>
      (meaningEntries es name).or (if k = name then some v.meaning else none)

end

mutual

def built : Json → Json
  | .arr items => .arr (builtItems items)
  | .obj entries => .object (builtEntries entries)
  | v => v

def builtItems : List Json → List Json
  | [] => []
  | v :: vs => v.built :: builtItems vs

def builtEntries : List (String × Json) → List (String × Json)
  | [] => []
  | (k, v) :: es => (k, v.built) :: builtEntries es

end

variable {v w : Json} {vs ws : List Json} {es fs : List (String × Json)}

theorem meaningItems_eq (vs : List Json) : meaningItems vs = vs.map meaning := by
  induction vs with
  | nil => rfl
  | cons v vs ih => rw [meaningItems, ih, List.map_cons]

theorem meaningEntries_eq (es : List (String × Json)) (name : String) :
    meaningEntries es name = (Keyed.last? name es).map meaning := by
  induction es with
  | nil => rfl
  | cons e es ih =>
      rw [meaningEntries, ih, Keyed.last?]
      cases Keyed.last? name es with
      | some v => rfl
      | none => split <;> rfl

theorem builtItems_eq (vs : List Json) : builtItems vs = vs.map built := by
  induction vs with
  | nil => rfl
  | cons v vs ih => rw [builtItems, ih, List.map_cons]

theorem builtEntries_eq (es : List (String × Json)) :
    builtEntries es = es.map fun e => (e.1, e.2.built) := by
  induction es with
  | nil => rfl
  | cons e es ih => rw [builtEntries, ih, List.map_cons]

theorem induct {P : Json → Prop} (null : P .null) (bool : ∀ b, P (.bool b)) (int : ∀ n, P (.int n))
    (double : ∀ bits, P (.double bits)) (str : ∀ s, P (.str s))
    (arr : ∀ vs, (∀ v ∈ vs, P v) → P (.arr vs))
    (obj : ∀ es, (∀ e ∈ es, P e.2) → P (.obj es)) (v : Json) : P v := by
  refine @Json.rec P (fun vs => ∀ v ∈ vs, P v) (fun es => ∀ e ∈ es, P e.2) (fun e => P e.2)
    null bool int double str arr obj ?_ ?_ ?_ ?_ ?_ v
  · simp
  · intro v vs hv hvs
    exact List.forall_mem_cons.2 ⟨hv, hvs⟩
  · simp
  · intro e es he hes
    exact List.forall_mem_cons.2 ⟨he, hes⟩
  · intro name v hv
    exact hv

theorem ordered_built (v : Json) : v.built.Ordered := by
  induction v using induct with
  | null => exact .null
  | bool b => exact .bool b
  | int n => exact .int n
  | double bits => exact .double bits
  | str s => exact .str s
  | arr vs ih =>
      rw [built, builtItems_eq]
      refine .arr ?_
      intro v hv
      obtain ⟨u, hu, rfl⟩ := List.mem_map.1 hv
      exact ih u hu
  | obj es ih =>
      rw [built, builtEntries_eq]
      apply ordered_object
      intro e he
      obtain ⟨f, hf, rfl⟩ := List.mem_map.1 he
      exact ih f hf

theorem exact_built (h : v.Exact) : v.built.Exact := by
  induction h with
  | null => exact .null
  | bool b => exact .bool b
  | int n => exact .int n
  | str s => exact .str s
  | arr _ ih =>
      rw [built, builtItems_eq]
      refine .arr ?_
      intro v hv
      obtain ⟨u, hu, rfl⟩ := List.mem_map.1 hv
      exact ih u hu
  | obj _ ih =>
      rw [built, builtEntries_eq]
      refine .obj ?_
      intro e he
      obtain ⟨f, hf, rfl⟩ := List.mem_map.1 (Keyed.mem_ofList he)
      exact ih f hf

theorem last?_built (es : List (String × Json)) (name : String) :
    Keyed.last? name (Keyed.ofList (builtEntries es)) = (Keyed.last? name es).map built := by
  rw [Keyed.last?_of_sorted (Keyed.sorted_ofList _), Keyed.find?_ofList, builtEntries_eq,
    Keyed.last?_map]

theorem meaning_built (v : Json) : v.built.meaning = v.meaning := by
  induction v using induct with
  | arr vs ih =>
      rw [built, meaning, meaning, builtItems_eq, meaningItems_eq, meaningItems_eq, List.map_map]
      exact congrArg Meaning.arr (List.map_congr_left ih)
  | obj es ih =>
      rw [built, object, meaning, meaning]
      congr 1
      funext name
      rw [meaningEntries_eq, meaningEntries_eq, last?_built]
      cases hv : Keyed.last? name es with
      | none => rfl
      | some v => exact congrArg some (ih _ (Keyed.mem_of_last? hv))
  | _ => rfl

theorem builtItems_congr (h : meaningItems vs = meaningItems ws)
    (ih : ∀ v ∈ vs, ∀ w : Json, v.meaning = w.meaning → v.built = w.built) :
    builtItems vs = builtItems ws := by
  induction vs generalizing ws with
  | nil =>
      cases ws with
      | nil => rfl
      | cons w ws => cases h
  | cons v vs ihs =>
      cases ws with
      | nil => cases h
      | cons w ws =>
          obtain ⟨hv, hvs⟩ := List.cons.inj h
          have hrest := ihs hvs fun u hu => ih u (List.mem_cons_of_mem _ hu)
          rw [builtItems, builtItems, ih v List.mem_cons_self w hv, hrest]

theorem builtEntries_congr (h : meaningEntries es = meaningEntries fs)
    (ih : ∀ e ∈ es, ∀ w : Json, e.2.meaning = w.meaning → e.2.built = w.built) :
    Keyed.ofList (builtEntries es) = Keyed.ofList (builtEntries fs) := by
  apply Keyed.eq_of_find? (Keyed.sorted_ofList _) (Keyed.sorted_ofList _)
  intro name
  have hname : (Keyed.last? name es).map meaning = (Keyed.last? name fs).map meaning := by
    rw [← meaningEntries_eq, ← meaningEntries_eq, h]
  simp only [Keyed.find?_ofList, builtEntries_eq, Keyed.last?_map]
  cases hv : Keyed.last? name es with
  | none =>
      rw [hv] at hname
      rw [Option.map_eq_none_iff.1 hname.symm]
  | some v =>
      rw [hv] at hname
      obtain ⟨w, hw, hvw⟩ := Option.map_eq_some_iff.1 hname.symm
      rw [hw]
      exact congrArg some (ih _ (Keyed.mem_of_last? hv) _ hvw.symm)

theorem built_congr (h : v.meaning = w.meaning) : v.built = w.built := by
  induction v using induct generalizing w with
  | arr vs ih =>
      cases w with
      | arr ws =>
          rw [built, built]
          exact congrArg Json.arr
            (builtItems_congr (Meaning.arr.inj h) fun v hv w hw => ih v hv hw)
      | _ => cases h
  | obj es ih =>
      cases w with
      | obj fs =>
          rw [built, built]
          exact congrArg Json.obj
            (builtEntries_congr (Meaning.obj.inj h) fun e he w hw => ih e he hw)
      | _ => cases h
  | str s =>
      cases w with
      | str t => exact congrArg Json.str (String.toList_inj.1 (Meaning.str.inj h))
      | _ => cases h
  | _ =>
      cases w <;> cases h
      rfl

theorem built_eq_iff : v.built = w.built ↔ v.meaning = w.meaning := by
  constructor
  · intro h
    rw [← meaning_built v, h, meaning_built]
  · exact built_congr

theorem zeroSigns_of_exact (h : v.Exact) : v.zeroSigns = [] := by
  induction h with
  | arr _ ih =>
      rw [zeroSigns, zeroSignsItems_eq]
      exact List.flatMap_eq_nil_iff.2 ih
  | obj _ ih =>
      rw [zeroSigns, zeroSignsEntries_eq]
      exact List.flatMap_eq_nil_iff.2 ih
  | _ => rfl

theorem equal_self (ho : v.Ordered) (h : v.Exact) : v.equal v = true := by
  induction h with
  | arr _ ih =>
      cases ho with
      | arr hvs =>
          rw [equal, equalItems_iff, List.forall₂_same]
          intro v hv
          exact ih v hv (hvs v hv)
  | obj _ ih =>
      cases ho with
      | obj hsorted hes =>
          rw [equal, Bool.and_eq_true, equalEntries_iff]
          refine ⟨by simp, ?_⟩
          intro e he
          exact ⟨e.2, Keyed.find?_of_mem hsorted he, ih e he (hes e he)⟩
  | _ => simp [equal]

end Switchboard.Json

import Switchboard.Proofs.Json.Equality
import Switchboard.Proofs.Json.Quoting

namespace Switchboard.Json

inductive Exact : Json → Prop
  | null : Exact .null
  | bool (b : Bool) : Exact (.bool b)
  | int (n : Int) : Exact (.int n)
  | str (s : String) : Exact (.str s)
  | arr {items : List Json} : (∀ v ∈ items, Exact v) → Exact (.arr items)
  | obj {entries : List (String × Json)} : (∀ e ∈ entries, Exact e.2) → Exact (.obj entries)

variable {v w : Json} {vs ws : List Json} {es fs : List (String × Json)} {rest rest' : List Char}

def Fenced (rest : List Char) : Prop := ∀ c ∈ rest.head?, c.isDigit = false

theorem fenced_nil : Fenced [] := by simp [Fenced]

theorem fenced_cons {c : Char} (h : c.isDigit = false) : Fenced (c :: rest) := by
  simpa [Fenced] using h

theorem isDigit_repr (n : Nat) : ∀ c ∈ n.repr.toList, c.isDigit = true := by
  intro c hc
  rw [Nat.toList_repr] at hc
  exact Nat.isDigit_of_mem_toDigits (by omega) (by omega) hc

theorem takeWhile_repr (n : Nat) (h : Fenced rest) :
    (n.repr.toList ++ rest).takeWhile Char.isDigit = n.repr.toList := by
  have hrest : rest.takeWhile Char.isDigit = [] := by
    cases rest with
    | nil => rfl
    | cons c rest => simp [h c rfl]
  rw [List.takeWhile_append_of_pos (isDigit_repr n), hrest, List.append_nil]

theorem repr_append_inj {m n : Nat} (hrest : Fenced rest) (hrest' : Fenced rest')
    (h : m.repr.toList ++ rest = n.repr.toList ++ rest') : m = n ∧ rest = rest' := by
  have htake := congrArg (List.takeWhile Char.isDigit) h
  rw [takeWhile_repr m hrest, takeWhile_repr n hrest'] at htake
  have hvalue := congrArg (fun ds => Nat.ofDigitChars 10 ds 0) htake
  rw [htake] at h
  exact ⟨by simpa [Nat.toList_repr] using hvalue, List.append_cancel_left h⟩

theorem head_repr (n : Nat) : ∃ c ds, n.repr.toList = c :: ds ∧ c.isDigit = true := by
  cases hds : n.repr.toList with
  | nil =>
      rw [Nat.toList_repr] at hds
      exact absurd hds Nat.toDigits_ne_nil
  | cons c ds =>
      have hdigit := isDigit_repr n c (by rw [hds]; exact List.mem_cons_self)
      exact ⟨c, ds, rfl, hdigit⟩

theorem text_int (n : Int) : (Json.int n).text.toList =
    match n with
    | .ofNat m => m.repr.toList
    | .negSucc m => '-' :: (m + 1).repr.toList := by
  cases n with
  | ofNat m => rfl
  | negSucc m =>
      change ("-" ++ (m + 1).repr).toList = _
      rw [String.toList_append]
      rfl

theorem int_append_inj {m n : Int} (hrest : Fenced rest) (hrest' : Fenced rest')
    (h : (Json.int m).text.toList ++ rest = (Json.int n).text.toList ++ rest') :
    m = n ∧ rest = rest' := by
  -- A sign is no digit, so numbers of different signs part at once.
  have hsign (a b : Nat) (r r' : List Char) : a.repr.toList ++ r ≠ '-' :: b.repr.toList ++ r' := by
    intro heq
    obtain ⟨c, ds, hds, hdigit⟩ := head_repr a
    rw [hds] at heq
    obtain rfl := (List.cons.inj heq).1
    exact absurd hdigit (by decide)
  rw [text_int, text_int] at h
  cases m with
  | ofNat m =>
      cases n with
      | ofNat n =>
          obtain ⟨rfl, hr⟩ := repr_append_inj hrest hrest' h
          exact ⟨rfl, hr⟩
      | negSucc n => exact (hsign m (n + 1) rest rest' h).elim
  | negSucc m =>
      cases n with
      | ofNat n => exact (hsign n (m + 1) rest' rest h.symm).elim
      | negSucc n =>
          obtain ⟨heq, hr⟩ := repr_append_inj hrest hrest' (List.cons.inj h).2
          obtain rfl : m = n := by omega
          exact ⟨rfl, hr⟩

inductive Kind where
  | null
  | bool
  | number
  | string
  | array
  | object
  deriving DecidableEq

def kind : Json → Kind
  | .null => .null
  | .bool _ => .bool
  | .int _ | .double _ => .number
  | .str _ => .string
  | .arr _ => .array
  | .obj _ => .object

def Kind.of? (c : Char) : Option Kind :=
  if c = 'n' then some .null
  else if c = 't' || c = 'f' then some .bool
  else if c = '"' then some .string
  else if c = '[' then some .array
  else if c = '\x7b' then some .object
  else if c = '-' || c.isDigit then some .number
  else none

theorem Kind.of?_digit {c : Char} (h : c.isDigit = true) : Kind.of? c = some .number := by
  have hne (d : Char) (hd : d.isDigit = false) : c ≠ d := by
    rintro rfl
    rw [h] at hd
    cases hd
  simp [Kind.of?, h, hne 'n' rfl, hne 't' rfl, hne 'f' rfl, hne '"' rfl, hne '[' rfl,
    hne '\x7b' rfl]

def field (e : String × Json) : List Char := (quote e.1 ++ ":" ++ e.2.text).toList

theorem text_arr : (Json.arr vs).text.toList =
    '[' :: ([','].intercalate (vs.map fun v => v.text.toList) ++ [']']) := by
  simp [text, textItems_eq, String.toList_intercalate, Function.comp_def]

theorem text_obj : (Json.obj es).text.toList =
    '\x7b' :: ([','].intercalate (es.map field) ++ ['\x7d']) := by
  have hmap : (textEntries es).map String.toList = es.map field := by
    rw [textEntries_eq, List.map_map]
    rfl
  simp [text, String.toList_intercalate, hmap]

theorem Exact.head (h : v.Exact) : ∃ c cs, v.text.toList = c :: cs ∧ Kind.of? c = some v.kind := by
  cases h with
  | null => exact ⟨'n', _, rfl, rfl⟩
  | bool b => cases b <;> exact ⟨_, _, rfl, rfl⟩
  | int n =>
      rw [text_int]
      cases n with
      | ofNat m =>
          obtain ⟨c, ds, hds, hdigit⟩ := head_repr m
          exact ⟨c, ds, hds, Kind.of?_digit hdigit⟩
      | negSucc m => exact ⟨'-', _, rfl, rfl⟩
  | str s => exact ⟨'"', _, toList_quote s, rfl⟩
  | arr _ => exact ⟨'[', _, text_arr, rfl⟩
  | obj _ => exact ⟨'\x7b', _, text_obj, rfl⟩

theorem kind_eq (hv : v.Exact) (hw : w.Exact)
    (h : v.text.toList ++ rest = w.text.toList ++ rest') : v.kind = w.kind := by
  obtain ⟨c, cs, hcs, hc⟩ := hv.head
  obtain ⟨d, ds, hds, hd⟩ := hw.head
  rw [hcs, hds] at h
  cases (List.cons.inj h).1
  rw [hc] at hd
  exact Option.some.inj hd

theorem intercalate_cons (xs : List (List Char)) (x : List Char) :
    [','].intercalate (x :: xs) = x ++ xs.flatMap (',' :: ·) := by
  induction xs generalizing x with
  | nil => simp
  | cons y ys ih => simp [List.intercalate_cons_cons, ih]

section Separated

variable {α : Type} {f : α → List Char} {close : Char} {xs ys : List α}

/-- What a text says and where it ends can be read off it. -/
def Legible (f : α → List Char) (x y : α) : Prop :=
  ∀ rest rest', Fenced rest → Fenced rest' → f x ++ rest = f y ++ rest' → x = y ∧ rest = rest'

theorem fenced_separated (hclose : close.isDigit = false) (xs : List α) (rest : List Char) :
    Fenced (xs.flatMap (fun x => ',' :: f x) ++ close :: rest) := by
  cases xs with
  | nil => exact fenced_cons hclose
  | cons x xs => exact fenced_cons (by decide)

theorem separated_append_inj (hcomma : close ≠ ',') (hclose : close.isDigit = false)
    (hread : ∀ x ∈ xs, ∀ y ∈ ys, Legible f x y)
    (h : xs.flatMap (fun x => ',' :: f x) ++ close :: rest =
      ys.flatMap (fun y => ',' :: f y) ++ close :: rest') : xs = ys ∧ rest = rest' := by
  induction xs generalizing ys with
  | nil =>
      cases ys with
      | nil => simpa using h
      | cons y ys => exact absurd (List.cons.inj h).1 hcomma
  | cons x xs ih =>
      cases ys with
      | nil => exact absurd (List.cons.inj h).1 (Ne.symm hcomma)
      | cons y ys =>
          simp only [List.flatMap_cons, List.cons_append, List.append_assoc] at h
          obtain ⟨rfl, htail⟩ := hread x List.mem_cons_self y List.mem_cons_self _ _
            (fenced_separated hclose xs rest) (fenced_separated hclose ys rest') (List.cons.inj h).2
          obtain ⟨rfl, hr⟩ := ih (fun a ha b hb =>
            hread a (List.mem_cons_of_mem _ ha) b (List.mem_cons_of_mem _ hb)) htail
          exact ⟨rfl, hr⟩

theorem intercalate_append_inj (hcomma : close ≠ ',') (hclose : close.isDigit = false)
    (hopen : ∀ x ∈ xs ++ ys, ∃ c cs, f x = c :: cs ∧ c ≠ close)
    (hread : ∀ x ∈ xs, ∀ y ∈ ys, Legible f x y)
    (h : [','].intercalate (xs.map f) ++ close :: rest =
      [','].intercalate (ys.map f) ++ close :: rest') : xs = ys ∧ rest = rest' := by
  have hempty (z : α) (hz : z ∈ xs ++ ys) (zs : List (List Char)) (r r' : List Char) :
      close :: r ≠ [','].intercalate (f z :: zs) ++ r' := by
    intro heq
    obtain ⟨c, cs, hcs, hne⟩ := hopen z hz
    rw [intercalate_cons, hcs] at heq
    exact hne (List.cons.inj heq).1.symm
  cases xs with
  | nil =>
      cases ys with
      | nil => simpa using h
      | cons y ys => exact absurd h (hempty y (by simp) _ _ _)
  | cons x xs =>
      cases ys with
      | nil => exact absurd h.symm (hempty x (by simp) _ _ _)
      | cons y ys =>
          apply separated_append_inj hcomma hclose hread
          simpa [intercalate_cons, List.flatMap_map] using h

end Separated

theorem field_eq (e : String × Json) :
    field e = '"' :: (e.1.toList.flatMap escape ++ '"' :: ':' :: e.2.text.toList) := by
  simp [field, toList_quote]

theorem legible_field {e f : String × Json} (h : Legible (fun v => v.text.toList) e.2 f.2) :
    Legible field e f := by
  intro rest rest' hrest hrest' heq
  have hfield (e : String × Json) (r : List Char) :
      field e ++ r = (quote e.1).toList ++ ':' :: (e.2.text.toList ++ r) := by
    simp [field]
  rw [hfield, hfield] at heq
  obtain ⟨hname, htail⟩ := quote_append_inj heq
  obtain ⟨hvalue, hr⟩ := h rest rest' hrest hrest' (List.cons.inj htail).2
  exact ⟨Prod.ext hname hvalue, hr⟩

theorem legible_arr (hvs : ∀ v ∈ vs, v.Exact) (hws : ∀ w ∈ ws, w.Exact)
    (hread : ∀ v ∈ vs, ∀ w ∈ ws, Legible (fun v => v.text.toList) v w) :
    Legible (fun v => v.text.toList) (arr vs) (arr ws) := by
  intro rest rest' _ _ h
  -- An item never begins with the bracket that closes an empty array.
  have hopen (v : Json) (hmem : v ∈ vs ++ ws) : ∃ c cs, v.text.toList = c :: cs ∧ c ≠ ']' := by
    have hexact := (List.mem_append.1 hmem).elim (hvs v) (hws v)
    obtain ⟨c, cs, hcs, hc⟩ := hexact.head
    refine ⟨c, cs, hcs, ?_⟩
    rintro rfl
    cases hc
  simp only [text_arr, List.cons_append, List.append_assoc, List.cons_inj_right] at h
  obtain ⟨rfl, hr⟩ := intercalate_append_inj (by decide) (by decide) hopen hread h
  exact ⟨rfl, hr⟩

theorem legible_obj (hread : ∀ e ∈ es, ∀ f ∈ fs, Legible field e f) :
    Legible (fun v => v.text.toList) (obj es) (obj fs) := by
  intro rest rest' _ _ h
  have hopen (e : String × Json) (_ : e ∈ es ++ fs) : ∃ c cs, field e = c :: cs ∧ c ≠ '\x7d' :=
    ⟨'"', _, field_eq e, by decide⟩
  simp only [text_obj, List.cons_append, List.append_assoc, List.cons_inj_right] at h
  obtain ⟨rfl, hr⟩ := intercalate_append_inj (by decide) (by decide) hopen hread h
  exact ⟨rfl, hr⟩

theorem legible_text (hv : v.Exact) (hw : w.Exact) :
    Legible (fun v => v.text.toList) v w := by
  induction hv generalizing w with
  | null =>
      intro rest rest' _ _ h
      have hkind := kind_eq .null hw h
      cases hw with
      | null => exact ⟨rfl, List.append_cancel_left h⟩
      | _ => cases hkind
  | bool b =>
      intro rest rest' _ _ h
      have hkind := kind_eq (.bool b) hw h
      cases hw with
      | bool b' => cases b <;> cases b' <;> simp_all [text]
      | _ => cases hkind
  | int n =>
      intro rest rest' hrest hrest' h
      have hkind := kind_eq (.int n) hw h
      cases hw with
      | int m =>
          obtain ⟨rfl, hr⟩ := int_append_inj hrest hrest' h
          exact ⟨rfl, hr⟩
      | _ => cases hkind
  | str s =>
      intro rest rest' _ _ h
      have hkind := kind_eq (.str s) hw h
      cases hw with
      | str t =>
          obtain ⟨rfl, hr⟩ := quote_append_inj h
          exact ⟨rfl, hr⟩
      | _ => cases hkind
  | arr hvs ih =>
      intro rest rest' hrest hrest' h
      have hkind := kind_eq (.arr hvs) hw h
      cases hw with
      | arr hws => exact legible_arr hvs hws (fun v hv w hw => ih v hv (hws w hw)) _ _ hrest hrest' h
      | _ => cases hkind
  | obj hes ih =>
      intro rest rest' hrest hrest' h
      have hkind := kind_eq (.obj hes) hw h
      cases hw with
      | obj hfs =>
          have hread := fun e he f hf => legible_field (ih e he (hfs f hf))
          exact legible_obj hread _ _ hrest hrest' h
      | _ => cases hkind

theorem text_inj (hv : v.Exact) (hw : w.Exact) : v.text = w.text ↔ v = w := by
  constructor
  · intro h
    exact (legible_text hv hw [] [] fenced_nil fenced_nil (by simp [h])).1
  · rintro rfl
    rfl

end Switchboard.Json

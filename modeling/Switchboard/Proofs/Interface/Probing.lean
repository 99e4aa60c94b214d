import Switchboard.Proofs.Interface.Coverage

namespace Switchboard

def capitalizeBy (upper : Char → List Char) (property : String) : String :=
  match property.toList with
  | [] => ""
  | c :: rest => String.ofList (upper c ++ rest)

def candidatesBy (upper : Char → List Char) (property : String) : List String :=
  [property, "get" ++ capitalizeBy upper property, "is" ++ capitalizeBy upper property]

def ArgumentType.search (t : ArgumentType) (method : String) (index : Nat)
    (typeName property : String) : List String → Except DeclarationError KeyAccess
  | [] =>
      if t.hasField property then .ok (.field property)
      else .error (.unresolvedProperty method index typeName property)
  | name :: names =>
      match t.accessor? name with
      | some x =>
          match x.returns with
          | .void => .error (.voidAccessor method index typeName x.name)
          | .value => .ok (.method x.name x.call)
      | none => t.search method index typeName property names

def propertyAccess (upper : Char → List Char) (t? : Option ArgumentType) (method : String)
    (index : Nat) (typeName property : String) : Except DeclarationError KeyAccess :=
  match t? with
  | some t => t.search method index typeName property (candidatesBy upper property)
  | none => .error (.unresolvedProperty method index typeName property)

inductive Reading where
  | method (x : Accessor)
  | field

def ArgumentType.readings (t : ArgumentType) (names : List String) (property : String) :
    List Reading :=
  (names.flatMap fun name => (t.accessors.filter (·.name = name)).map .method) ++
    (t.fields.filter (· = property)).map fun _ => .field

def Reading.access (method : String) (index : Nat) (typeName property : String) :
    Option Reading → Except DeclarationError KeyAccess
  | some (.method x) =>
      match x.returns with
      | .void => .error (.voidAccessor method index typeName x.name)
      | .value => .ok (.method x.name x.call)
  | some .field => .ok (.field property)
  | none => .error (.unresolvedProperty method index typeName property)

variable {upper : Char → List Char} {t t' : ArgumentType} {t? : Option ArgumentType}
  {names : List String} {q typeName property : String} {index : Nat}

theorem hasField_iff : t.hasField property = true ↔ property ∈ t.fields := List.contains_iff_mem

theorem head?_readings_nil : (t.readings [] property).head? =
    if t.hasField property then some .field else none := by
  rw [ArgumentType.readings, List.flatMap_nil, List.nil_append, List.head?_map, List.head?_filter]
  cases hfind : t.fields.find? (· = property) with
  | some f =>
      obtain rfl : f = property := by simpa using List.find?_some hfind
      rw [if_pos (hasField_iff.2 (List.mem_of_find?_eq_some hfind)), Option.map_some]
  | none =>
      have hfield : property ∉ t.fields := fun hmem => by
        simpa using List.find?_eq_none.1 hfind property hmem
      rw [if_neg (mt hasField_iff.1 hfield), Option.map_none]

theorem head?_readings : (t.readings names property).head? =
    ((names.findSome? t.accessor?).map .method).or
      (if t.hasField property then some .field else none) := by
  induction names with
  | nil => exact head?_readings_nil
  | cons name names ih =>
      have hhead : (t.readings (name :: names) property).head? =
          ((t.accessor? name).map .method).or (t.readings names property).head? := by
        simp [ArgumentType.readings, ArgumentType.accessor?]
      rw [hhead, ih, List.findSome?_cons]
      cases t.accessor? name <;> rfl

theorem search_eq_access : t.search q index typeName property names =
    Reading.access q index typeName property (t.readings names property).head? := by
  rw [head?_readings]
  induction names with
  | nil =>
      rw [ArgumentType.search]
      split <;> rfl
  | cons name names ih =>
      rw [ArgumentType.search, List.findSome?_cons]
      cases t.accessor? name with
      | some x => cases hx : x.returns <;> simp [Reading.access, hx]
      | none => exact ih

def ArgumentType.Lacks (t : ArgumentType) (names : List String) : Prop :=
  ∀ n ∈ names, ∀ y ∈ t.accessors, y.name ≠ n

structure ArgumentType.Decides (t : ArgumentType) (names : List String) (x : Accessor) : Prop where
  name : ∃ before after, names = before ++ x.name :: after ∧ t.Lacks before
  first : ∃ earlier later, t.accessors = earlier ++ x :: later ∧ ∀ y ∈ earlier, y.name ≠ x.name

theorem accessor?_eq_none {n : String} : t.accessor? n = none ↔ ∀ y ∈ t.accessors, y.name ≠ n := by
  simp [ArgumentType.accessor?]

theorem accessor?_eq_some {n : String} {x : Accessor} : t.accessor? n = some x ↔
    x.name = n ∧ ∃ earlier later, t.accessors = earlier ++ x :: later ∧
      ∀ y ∈ earlier, y.name ≠ n := by
  simp [ArgumentType.accessor?, List.find?_eq_some_iff_append]

theorem findSome?_eq_none : names.findSome? t.accessor? = none ↔ t.Lacks names := by
  simp only [List.findSome?_eq_none_iff, accessor?_eq_none, ArgumentType.Lacks]

theorem findSome?_eq_some {x : Accessor} :
    names.findSome? t.accessor? = some x ↔ t.Decides names x := by
  simp only [List.findSome?_eq_some_iff, accessor?_eq_some, accessor?_eq_none]
  constructor
  · rintro ⟨before, _, after, hsplit, ⟨rfl, hfirst⟩, hlacks⟩
    exact ⟨⟨before, after, hsplit, hlacks⟩, hfirst⟩
  · rintro ⟨⟨before, after, hsplit, hlacks⟩, hfirst⟩
    exact ⟨before, x.name, after, hsplit, ⟨rfl, hfirst⟩, hlacks⟩

inductive Probes (t? : Option ArgumentType) (names : List String) (q : String) (index : Nat)
    (typeName property : String) : Except DeclarationError KeyAccess → Prop
  | method {t : ArgumentType} {x : Accessor} : t? = some t → t.Decides names x →
      x.returns = .value → Probes t? names q index typeName property (.ok (.method x.name x.call))
  | void {t : ArgumentType} {x : Accessor} : t? = some t → t.Decides names x →
      x.returns = .void →
      Probes t? names q index typeName property (.error (.voidAccessor q index typeName x.name))
  | field {t : ArgumentType} : t? = some t → t.Lacks names → property ∈ t.fields →
      Probes t? names q index typeName property (.ok (.field property))
  | missing {t : ArgumentType} : t? = some t → t.Lacks names → property ∉ t.fields →
      Probes t? names q index typeName property
        (.error (.unresolvedProperty q index typeName property))
  | unregistered : t? = none →
      Probes t? names q index typeName property
        (.error (.unresolvedProperty q index typeName property))

theorem probes_search : Probes (some t) names q index typeName property
    (t.search q index typeName property names) := by
  rw [search_eq_access, head?_readings]
  cases hfound : names.findSome? t.accessor? with
  | some x =>
      have hx := findSome?_eq_some.1 hfound
      cases hreturns : x.returns with
      | value => simpa [Reading.access, hreturns] using .method rfl hx hreturns
      | void => simpa [Reading.access, hreturns] using .void rfl hx hreturns
  | none =>
      have hlacks := findSome?_eq_none.1 hfound
      by_cases hfield : property ∈ t.fields
      · simpa [Reading.access, hasField_iff, hfield] using .field rfl hlacks hfield
      · simpa [Reading.access, hasField_iff, hfield] using .missing rfl hlacks hfield

theorem propertyAccess_eq_iff {out : Except DeclarationError KeyAccess} :
    propertyAccess upper t? q index typeName property = out ↔
      Probes t? (candidatesBy upper property) q index typeName property out := by
  constructor
  · rintro rfl
    cases t? with
    | none => exact .unregistered rfl
    | some t => exact probes_search
  · intro h
    cases h with
    | unregistered hnone => rw [hnone, propertyAccess]
    | method ht hx hreturns | void ht hx hreturns =>
        simp [ht, propertyAccess, search_eq_access, head?_readings, findSome?_eq_some.2 hx,
          Reading.access, hreturns]
    | field ht hlacks hfield | missing ht hlacks hfield =>
        simp [ht, propertyAccess, search_eq_access, head?_readings, findSome?_eq_none.2 hlacks,
          Reading.access, hasField_iff, hfield]

theorem propertyAccess_of_readings {kept later later' : List Reading} (hkept : kept ≠ [])
    (h : t.readings (candidatesBy upper property) property = kept ++ later)
    (h' : t'.readings (candidatesBy upper property) property = kept ++ later') :
    propertyAccess upper (some t) q index typeName property =
      propertyAccess upper (some t') q index typeName property := by
  rw [propertyAccess, propertyAccess, search_eq_access, search_eq_access, h, h',
    List.head?_append_of_ne_nil _ hkept, List.head?_append_of_ne_nil _ hkept]

namespace Analyzer

open Interface (declarations)

variable {a : Analyzer} {root i : Interface} {m : Method} {p : Param} {before : List Param}
  {options : CallOptions} {e : DeclarationError}

theorem probe_eq_search : t.probe q index typeName property =
    t.search q index typeName property (propertyCandidates property) := by
  rw [search_eq_access, head?_readings, ArgumentType.probe]
  cases (propertyCandidates property).findSome? t.accessor? with
  | some x => cases hx : x.returns <;> simp [Reading.access, hx]
  | none => by_cases hfield : t.hasField property <;> simp [Reading.access, hfield]

def accessTo (a : Analyzer) (q : String) (index : Nat) (p : Param) (property : String) :
    Except DeclarationError KeyAccess :=
  propertyAccess Uppercase.ofChar (a.types.get? p.type) q index p.type property

theorem keyAccess_property :
    a.keyAccess q index p (.property property) = (a.accessTo q index p property).map some := by
  simp only [keyAccess, accessTo, propertyAccess]
  cases a.types.get? p.type with
  | none => rfl
  | some t => exact congrArg (Except.map some) probe_eq_search

structure Asks (m : Method) (options : CallOptions) (before : List Param) (p : Param)
    (property : String) : Prop where
  routing : m.routing = [.partitioned options]
  parameter : ∃ after, m.params = before ++ p :: after ∧ ∀ r ∈ before ++ after, r.key = none
  mark : p.key = some (.property property)

theorem Asks.keySpec (h : Asks m options before p property) (a : Analyzer) (q : String) :
    a.keySpec q m.params = (a.accessTo q before.length p property).map fun access =>
      ⟨before.length, some access, p.type, a.selfKey p⟩ := by
  obtain ⟨after, hparams, hnone⟩ := h.parameter
  have hmarked : marked m.params = [(before.length, p, .property property)] :=
    marked_eq_singleton.2 ⟨before, after, hparams, hnone, h.mark, (Nat.zero_add _).symm⟩
  unfold Analyzer.keySpec
  split
  · next hnil => simp [hparams] at hnil
  · simp only [hmarked, keyAccess_property]
    cases a.accessTo q before.length p property <;> rfl

theorem Asks.route (h : Asks m options before p property) (a : Analyzer) (q : String) :
    a.route q m = (a.accessTo q before.length p property).map fun access =>
      ⟨m.signature, .partitioned ⟨before.length, some access, p.type, a.selfKey p⟩,
        options.timeout.getD a.defaultTimeout, options.interrupt⟩ := by
  simp only [Analyzer.route, h.routing, target, h.keySpec]
  cases a.accessTo q before.length p property <;> rfl

structure Comes (a : Analyzer) (root i : Interface) (m : Method) : Prop where
  named : root.name ≠ "" ∧ m.name ≠ ""
  found : ∃ found earlier later, root.hierarchy = .ok found ∧
    declarations found = earlier ++ (i, m) :: later ∧
    (∀ x ∈ earlier, x.2.name ≠ "" ∧ ∃ r, a.Admits x.2 r) ∧
    ((earlier ++ [(i, m)]).map fun x => x.2.signature).Nodup

theorem Comes.analyze (h : a.Comes root i m)
    (he : a.route (i.simpleName ++ "." ++ m.signature.display) m = .error e) :
    a.analyze root = .error e := by
  obtain ⟨⟨hroot, hm⟩, found, earlier, later, hfound, hsplit, hearlier, hnodup⟩ := h
  rw [List.map_append, List.nodup_append] at hnodup
  obtain ⟨done, hdone⟩ := Declares.exists_forall₂ (a := a) fun x hx =>
    (hearlier x hx).2.elim fun r hr => ⟨⟨x.1.name, r⟩, rfl, hr⟩
  have hfold : earlier.foldlM (fun done x => a.declare x.1 done x.2) [] = .ok done :=
    foldlM_declare_eq_ok.2
      ⟨fun x hx => (hearlier x hx).1, by simp, hnodup.1, done, hdone, rfl⟩
  have hfresh : done.find? (·.route.signature = m.signature) = none := by
    refine List.find?_eq_none.2 fun d hd => ?_
    obtain ⟨x, hx, hdeclares⟩ := exists_of_forall₂ hdone.flip hd
    have hother : x.2.signature ≠ m.signature :=
      hnodup.2.2 _ (List.mem_map_of_mem hx) _ (List.mem_singleton_self _)
    simpa [hdeclares.2.signature] using hother
  have hdeclare : a.declare i done m = .error e := by
    simp [declare, hm, hfresh, he]
  have hall : found.foldlM a.declareAll [] = .error e := by
    rw [foldlM_declareAll, hsplit, List.foldlM_append, hfold]
    exact bind_eq_error.2 (Or.inr ⟨done, rfl, bind_eq_error.2 (Or.inl hdeclare)⟩)
  unfold Analyzer.analyze
  rw [if_neg (by simpa using hroot), hfound]
  exact bind_eq_error.2 (Or.inr ⟨found, rfl, bind_eq_error.2 (Or.inl hall)⟩)

/-- The first of the names that names a method decides by the first method declared so, and without
one a field does. Nothing that comes later in this order makes a difference, and an analysis that
comes to such a property fails if the search for it does. -/
theorem first_reading_decides :
    (∀ upper t? q index typeName property out,
      propertyAccess upper t? q index typeName property = out ↔
        Probes t? (candidatesBy upper property) q index typeName property out) ∧
    (∀ upper q index typeName property (t t' : ArgumentType) (kept later later' : List Reading),
      kept ≠ [] → t.readings (candidatesBy upper property) property = kept ++ later →
      t'.readings (candidatesBy upper property) property = kept ++ later' →
        propertyAccess upper (some t) q index typeName property =
          propertyAccess upper (some t') q index typeName property) ∧
    ∀ (a : Analyzer) (m : Method) options before p property, Asks m options before p property →
      (∀ q, a.route q m = (a.accessTo q before.length p property).map fun access =>
        ⟨m.signature, .partitioned ⟨before.length, some access, p.type, a.selfKey p⟩,
          options.timeout.getD a.defaultTimeout, options.interrupt⟩) ∧
      ∀ root i e, a.Comes root i m →
        a.accessTo (i.simpleName ++ "." ++ m.signature.display) before.length p property =
          .error e → a.analyze root = .error e := by
  refine ⟨fun upper t? q index typeName property out => propertyAccess_eq_iff,
    fun upper q index typeName property t t' kept later later' hkept h h' =>
      propertyAccess_of_readings hkept h h',
    fun a m options before p property hasks => ⟨hasks.route a, fun root i e hcomes he => ?_⟩⟩
  apply hcomes.analyze
  rw [hasks.route, he]
  rfl

def voidHolder : Accessor := ⟨"getHolder", .void, .ok⟩

def accounts : ArgumentType where
  name := "Account"
  accessors := [⟨"isHolder", .value, .ok⟩, voidHolder, ⟨"getHolder", .value, .ok⟩]
  fields := ["holder"]
  selfKey := none

def bareAccounts : ArgumentType := { accounts with accessors := [voidHolder], fields := [] }

def closeAccount : Method :=
  ⟨"close", [⟨"reason", "String", none⟩, ⟨"account", "Account", some (.property "holder")⟩],
    [.partitioned ⟨none, true⟩]⟩

def accountDesk : Interface := .mk "bank::Desk" true [] [audit, closeAccount]

def accountClerk : Analyzer := ⟨.ofList [accounts], .builtin, .ofMillis 60000⟩

theorem accountClerk_comes : accountClerk.Comes accountDesk accountDesk closeAccount where
  named := by decide
  found := by
    refine ⟨[accountDesk], [(accountDesk, audit)], [], ?_, rfl, ?_, by decide⟩
    · simp [Interface.hierarchy, Interface.walk, accountDesk, Interface.name, Interface.exposable,
        Interface.parents, Except.map]
    · intro x hx
      obtain rfl := List.mem_singleton.1 hx
      exact ⟨by decide, _, .balanced rfl rfl⟩

theorem candidates_holder :
    candidatesBy Uppercase.ofChar "holder" = ["holder", "getHolder", "isHolder"] := by
  with_unfolding_all rfl

theorem accounts_decides :
    accounts.Decides (candidatesBy Uppercase.ofChar "holder") voidHolder where
  name := ⟨["holder"], ["isHolder"], candidates_holder, by
    simp [ArgumentType.Lacks, accounts, voidHolder]⟩
  first := ⟨[_], [_], rfl, by simp [voidHolder]⟩

theorem first_reading_decides_of_accounts :
    accountClerk.analyze accountDesk =
        .error (.voidAccessor "Desk.close(String, Account)" 1 "Account" "getHolder") ∧
      propertyAccess Uppercase.ofChar (some accounts) "close" 1 "Account" "holder" =
        propertyAccess Uppercase.ofChar (some bareAccounts) "close" 1 "Account" "holder" := by
  obtain ⟨hprobes, hkept, hanalyzed⟩ := first_reading_decides
  constructor
  · have hasks : Asks closeAccount ⟨none, true⟩ [⟨"reason", "String", none⟩]
        ⟨"account", "Account", some (.property "holder")⟩ "holder" :=
      ⟨rfl, ⟨[], rfl, by simp⟩, rfl⟩
    obtain ⟨-, hfails⟩ := hanalyzed accountClerk _ _ _ _ _ hasks
    exact hfails _ _ _ accountClerk_comes ((hprobes ..).2 (.void rfl accounts_decides rfl))
  · have hreadings : accounts.readings (candidatesBy Uppercase.ofChar "holder") "holder" =
        [.method voidHolder] ++ [.method ⟨"getHolder", .value, .ok⟩,
          .method ⟨"isHolder", .value, .ok⟩, .field] := by
      rw [candidates_holder]
      rfl
    have hbare : bareAccounts.readings (candidatesBy Uppercase.ofChar "holder") "holder" =
        [.method voidHolder] ++ [] := by
      rw [candidates_holder]
      rfl
    exact hkept _ _ _ _ _ _ _ _ _ _ (List.cons_ne_nil _ _) hreadings hbare

end Analyzer

end Switchboard

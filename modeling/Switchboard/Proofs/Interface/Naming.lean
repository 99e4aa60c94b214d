import Switchboard.Proofs.Interface.Coverage

namespace Switchboard

def DeclarationError.method? : DeclarationError → Option String
  | missingRouting m | conflictingRouting m _ | noParameters m | missingKey m | multipleKeys m _
  | unresolvedProperty m _ _ _ | voidAccessor m _ _ _ | policy m _ _ => some m
  | ambiguousMethod m _ _ => some m
  | _ => none

variable {a : Analyzer} {root i : Interface} {m : Method} {p : Param} {params : List Param}
  {q : String} {e : DeclarationError} {done : List Analyzer.Declared} {table : RouteTable}

theorem ArgumentType.probe_error {t : ArgumentType} {index : Nat} {typeName property : String}
    (h : t.probe q index typeName property = .error e) : e.method? = some q := by
  unfold probe at h
  split at h
  · split at h <;> cases h
    rfl
  · split at h <;> cases h
    rfl

namespace Analyzer

theorem keyAccess_error {index : Nat} {mark : KeyMark}
    (h : a.keyAccess q index p mark = .error e) : e.method? = some q := by
  cases mark with
  | whole => cases h
  | property name =>
      simp only [keyAccess] at h
      split at h
      · exact ArgumentType.probe_error (map_eq_error.1 h)
      · cases h
        rfl

theorem keySpec_error (h : a.keySpec q params = .error e) : e.method? = some q := by
  unfold keySpec at h
  split at h
  · cases h
    rfl
  split at h
  · rcases bind_eq_error.1 h with h | ⟨access, -, h⟩
    · exact keyAccess_error h
    · cases h
  · cases h
    rfl
  · cases h
    rfl

theorem route_error (h : a.route q m = .error e) : e.method? = some q := by
  unfold route at h
  split at h
  · next routing hrouting =>
      rcases bind_eq_error.1 h with h | ⟨x, -, h⟩
      · cases routing with
        | balanced name options =>
            simp only [target] at h
            split at h <;> cases h
            rfl
        | partitioned options => exact keySpec_error (map_eq_error.1 h)
      · cases h
  · cases h
    rfl
  · cases h
    rfl

theorem declare_error (h : a.declare i done m = .error e) :
    m.name = "" ∧ e = .emptyMethodName i.name ∨ e.method?.isSome := by
  unfold declare at h
  split at h
  · next hname =>
      cases h
      exact Or.inl ⟨String.isEmpty_iff.1 hname, rfl⟩
  split at h
  · cases h
    exact Or.inr rfl
  · rcases bind_eq_error.1 h with h | ⟨r, -, h⟩
    · exact Or.inr (by rw [route_error h]; rfl)
    · cases h

inductive Fault (root : Interface) : DeclarationError → Prop
  | unnamed : root.name = "" → Fault root .emptyInterfaceName
  | hidden {i : Interface} :
      root.Reaches i → i.exposable = false → Fault root (.notExposable i.name)
  | unnamedMethod {i : Interface} {m : Method} :
      root.Reaches i → m ∈ i.methods → m.name = "" → Fault root (.emptyMethodName i.name)
  | method {e : DeclarationError} : e.method?.isSome → Fault root e

theorem fault_of_analyze (h : a.analyze root = .error e) : Fault root e := by
  unfold analyze at h
  split at h
  · next hname =>
      cases h
      exact .unnamed (String.isEmpty_iff.1 hname)
  rcases bind_eq_error.1 h with h | ⟨found, hfound, h⟩
  · obtain ⟨i, hi, hhidden, rfl⟩ := Interface.hierarchy_error h
    exact .hidden hi hhidden
  rcases bind_eq_error.1 h with h | ⟨declared, -, h⟩
  · rw [foldlM_declareAll] at h
    obtain ⟨⟨i, m⟩, hx, done, hdeclare⟩ := foldlM_eq_error h
    obtain ⟨hi, hm⟩ := Interface.mem_declarations.1 hx
    rcases declare_error hdeclare with ⟨hname, rfl⟩ | hmethod
    · exact .unnamedMethod (Interface.reaches_of_mem_hierarchy hfound hi) hm hname
    · exact .method hmethod
  · cases h

theorem analyze_unnamed : a.analyze root = .error .emptyInterfaceName ↔ root.name = "" := by
  constructor
  · intro h
    cases fault_of_analyze h with
    | unnamed hname => exact hname
    | method hmethod => cases hmethod
  · intro hname
    simp [analyze, hname]

/-- An analysis fails for the name of an interface exactly if the one it is asked for has none, and
for the name of a method only if one that is declared has none. When it succeeds all methods have
names, but for those of interfaces in whose place another declaration was taken. -/
theorem nameless_refused (a : Analyzer) (root : Interface) :
    (a.analyze root = .error .emptyInterfaceName ↔ root.name = "") ∧
      (∀ n, a.analyze root = .error (.emptyMethodName n) →
        ∃ i, root.Reaches i ∧ i.name = n ∧ ∃ m ∈ i.methods, m.name = "") ∧
      ∀ table, a.analyze root = .ok table → root.name ≠ "" ∧
        ∀ i, root.Reaches i → (∀ m ∈ i.methods, m.name ≠ "") ∨ root.Shadowed i := by
  refine ⟨analyze_unnamed, fun n h => ?_, fun table h => ?_⟩
  · cases fault_of_analyze h with
    | unnamedMethod hi hm hname => exact ⟨_, hi, rfl, _, hm, hname⟩
    | method hmethod => cases hmethod
  · obtain ⟨hname, found, hfound, declared, ht, -⟩ := analyze_eq_ok.1 h
    refine ⟨hname, fun i hi => ?_⟩
    rcases Interface.found_or_shadowed hfound hi with hmem | hs
    · exact Or.inl fun m hm => ht.named (i, m) (Interface.mem_declarations.2 ⟨hmem, hm⟩)
    · exact Or.inr hs

def unnamedBase : Interface := .mk "" true [] [audit]

def overUnnamed : Interface := .mk "bank::A" true [unnamedBase] []

theorem overUnnamed_reaches : overUnnamed.Reaches unnamedBase :=
  .single (by simp [overUnnamed, Interface.parents])

theorem analyze_overUnnamed : builtin.analyze overUnnamed =
    .ok ⟨"bank::A", "A", [⟨⟨"audit", []⟩, .balanced .roundRobin, .ofMillis 60000, false⟩]⟩ := by
  with_unfolding_all rfl

theorem overUnnamed_consistent : overUnnamed.Consistent := by
  have hclosed : ∀ j ∈ [overUnnamed, unnamedBase], ∀ p ∈ j.parents,
      p ∈ [overUnnamed, unnamedBase] := by
    simp [overUnnamed, unnamedBase, Interface.parents]
  exact .of_closed (by simp) hclosed (by decide)

def unnamedMethod : Interface := .mk "bank::A" true [] [⟨"", [], []⟩]

theorem analyze_unnamedMethod :
    builtin.analyze unnamedMethod = .error (.emptyMethodName "bank::A") := by
  with_unfolding_all rfl

theorem nameless_refused_overUnnamed :
    (∃ table, builtin.analyze overUnnamed = .ok table) ∧ overUnnamed.name ≠ "" ∧
      (∀ m ∈ unnamedBase.methods, m.name ≠ "") ∧
      ∃ i, unnamedMethod.Reaches i ∧ i.name = "bank::A" ∧ ∃ m ∈ i.methods, m.name = "" := by
  obtain ⟨-, -, hok⟩ := nameless_refused builtin overUnnamed
  obtain ⟨-, hmethod, -⟩ := nameless_refused builtin unnamedMethod
  obtain ⟨hname, hmethods⟩ := hok _ analyze_overUnnamed
  refine ⟨⟨_, analyze_overUnnamed⟩, hname, ?_, hmethod _ analyze_unnamedMethod⟩
  exact (hmethods unnamedBase overUnnamed_reaches).resolve_right overUnnamed_consistent.not_shadowed

theorem unnamed_base_accepted : ¬∀ (a : Analyzer) (root i : Interface) (table : RouteTable),
    a.analyze root = .ok table → root.Reaches i → i.name ≠ "" ∧ ∀ m ∈ i.methods, m.name ≠ "" := by
  intro h
  exact (h builtin overUnnamed unnamedBase _ analyze_overUnnamed overUnnamed_reaches).1 rfl

end Analyzer

end Switchboard

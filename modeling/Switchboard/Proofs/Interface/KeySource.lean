import Switchboard.Proofs.Interface.Coverage

namespace Switchboard

inductive KeySource where
  | access (a : KeyAccess)
  | selfKey (typeName : String) (key : Access)
  | argument

namespace KeySource

def yield (arg : Json) : KeySource → Except String Json
  | access (.method _ call) => call arg
  | access (.field name) =>
      match arg with
      | .obj entries => .ok ((Keyed.find? name entries).getD .null)
      | _ => .error ("argument is not an object: " ++ arg.text)
  | selfKey _ key => key arg
  | argument => .ok arg

def consults : KeySource → List Consulted
  | access (.method _ _) => [.access]
  | selfKey _ _ => [.selfKey]
  | _ => []

inductive Makes (method : String) :
    KeySource → Except String Json → Except CallerError PartitionKey → Prop
  | key {src : KeySource} {v : Json} : v ≠ .null → Makes method src (.ok v) (.ok ⟨v⟩)
  | nullAccess (a : KeyAccess) :
      Makes method (.access a) (.ok .null) (.error (.nullAccess method a.name))
  | nullSelfKey (typeName : String) (key : Access) :
      Makes method (.selfKey typeName key) (.ok .null) (.error (.nullSelfKey method typeName))
  | accessFailed (a : KeyAccess) (reason : String) :
      Makes method (.access a) (.error reason) (.error (.accessFailed method a.name reason))
  | selfKeyFailed (typeName : String) (key : Access) (reason : String) :
      Makes method (.selfKey typeName key) (.error reason)
        (.error (.accessFailed method (typeName ++ "::partition_key") reason))

variable {src : KeySource} {method : String} {v arg : Json} {y : Except String Json}
  {r r' : Except CallerError PartitionKey} {k : PartitionKey} {lack : CallerError}

theorem Makes.unique (h : Makes method src y r) (h' : Makes method src y r') : r = r' := by
  cases h <;> cases h' <;> first | rfl | contradiction

theorem Makes.ok_iff (h : Makes method src y r) :
    r = .ok k ↔ y = .ok k.value ∧ k.value ≠ .null := by
  cases h with
  | @key src v hv =>
      constructor
      · rintro ⟨⟩
        exact ⟨rfl, hv⟩
      · rintro ⟨⟨⟩, -⟩
        rfl
  | nullAccess | nullSelfKey =>
      constructor
      · rintro ⟨⟩
      · rintro ⟨hnull, hne⟩
        exact absurd (Except.ok.inj hnull).symm hne
  | accessFailed | selfKeyFailed =>
      constructor
      · rintro ⟨⟩
      · rintro ⟨⟨⟩, -⟩

theorem Makes.ne_nullKeyArgument (h : Makes method src y r) (m : String) (index : Nat) :
    r ≠ .error (.nullKeyArgument m index) := by
  rintro rfl
  cases h

theorem Makes.ne_argumentCount (h : Makes method src y r) (m : String) (expected actual : Nat) :
    r ≠ .error (.argumentCount m expected actual) := by
  rintro rfl
  cases h

theorem makes_keyOr (h : Makes method src (.ok .null) (.error lack)) (v : Json) :
    Makes method src (.ok v) (KeySpec.keyOr lack v) := by
  cases v with
  | null => exact h
  | _ => exact .key Json.noConfusion

end KeySource

namespace KeySpec

def source (s : KeySpec) : KeySource :=
  match s.access, s.selfKey with
  | some a, _ => .access a
  | none, some key => .selfKey s.typeName key
  | none, none => .argument

def Presents (s : KeySpec) (args : List Json) (arg : Json) : Prop :=
  args[s.index]? = some arg ∧ arg ≠ .null

inductive Takes (s : KeySpec) (method : String) (args : List Json) :
    Except CallerError PartitionKey × List Consulted → Prop
  | absent : (∀ arg, ¬s.Presents args arg) →
      Takes s method args (.error (.nullKeyArgument method s.index), [])
  | asked {arg : Json} {r : Except CallerError PartitionKey} : s.Presents args arg →
      s.source.Makes method (s.source.yield arg) r → Takes s method args (r, s.source.consults)

def consult (f : Consulted) (call : Access) (arg : Json) :
    StateM (List Consulted) (Except String Json) := do
  modify (· ++ [f])
  return call arg

/-- The taking of a key, step by step. No function runs but by `consult`. -/
def inquiry (s : KeySpec) (method : String) (args : List Json) :
    ExceptT CallerError (StateM (List Consulted)) PartitionKey := do
  let some arg := args[s.index]?.filter (!·.isNull)
    | throw (.nullKeyArgument method s.index)
  let mut v := arg
  match s.access with
  | none =>
      if let some key := s.selfKey then
        match ← consult .selfKey key arg with
        | .error reason => throw (.accessFailed method (s.typeName ++ "::partition_key") reason)
        | .ok reported =>
            match PartitionKey.ofValue? reported with
            | some k => return k
            | none => throw (.nullSelfKey method s.typeName)
  | some (.method name call) =>
      match ← consult .access call arg with
      | .error reason => throw (.accessFailed method name reason)
      | .ok w => v := w
  | some (.field name) =>
      match arg with
      | .obj entries => v := (Keyed.find? name entries).getD .null
      | other => throw (.accessFailed method name ("argument is not an object: " ++ other.text))
  match PartitionKey.ofValue? v, s.access with
  | some k, _ => return k
  | none, some a => throw (.nullAccess method a.name)
  | none, none => throw (.nullKeyArgument method s.index)

variable {s : KeySpec} {method : String} {args : List Json} {arg arg' v : Json}
  {out out' : Except CallerError PartitionKey × List Consulted}

theorem not_presents : (∀ arg, ¬s.Presents args arg) ↔
    args[s.index]? = none ∨ args[s.index]? = some .null := by
  simp only [Presents, not_and, not_not]
  cases args[s.index]? <;> simp

theorem Presents.unique (h : s.Presents args arg) (h' : s.Presents args arg') : arg = arg' :=
  Option.some.inj (h.1.symm.trans h'.1)

theorem Takes.unique (h : s.Takes method args out) (h' : s.Takes method args out') :
    out = out' := by
  cases h with
  | absent habsent =>
      cases h' with
      | absent => rfl
      | asked hp => exact absurd hp (habsent _)
  | asked hp hmakes =>
      cases h' with
      | absent habsent => exact absurd hp (habsent _)
      | asked hp' hmakes' =>
          obtain rfl := hp.unique hp'
          rw [hmakes.unique hmakes']

theorem resolve_absent (h : ∀ arg, ¬s.Presents args arg) (method : String) :
    s.resolve method args = (.error (.nullKeyArgument method s.index), []) := by
  rcases not_presents.1 h with harg | harg <;> simp only [resolve, harg]

theorem resolve_present (h : s.Presents args arg) (method : String) :
    s.resolve method args =
      match s.access, s.selfKey with
      | some (.method name call), _ => (byMethod method name call arg, [.access])
      | some (.field name), _ => (byField method name arg, [])
      | none, some key => (bySelf method s.typeName key arg, [.selfKey])
      | none, none => (keyOr (.nullKeyArgument method s.index) arg, []) := by
  obtain ⟨harg, hne⟩ := h
  unfold resolve
  rw [harg]
  cases arg with
  | null => exact absurd rfl hne
  | _ => rfl

theorem takes_resolve (s : KeySpec) (method : String) (args : List Json) :
    s.Takes method args (s.resolve method args) := by
  by_cases habsent : ∀ arg, ¬s.Presents args arg
  · rw [resolve_absent habsent]
    exact .absent habsent
  obtain ⟨arg, h⟩ : ∃ arg, s.Presents args arg := by simpa using habsent
  rw [resolve_present h]
  obtain ⟨index, access, typeName, selfKey⟩ := s
  cases access with
  | some access =>
      cases access with
      | method name call =>
          refine .asked h ?_
          simp only [source, KeySource.yield, byMethod]
          cases call arg with
          | error reason => exact .accessFailed _ reason
          | ok v => exact KeySource.makes_keyOr (.nullAccess _) v
      | field name =>
          refine .asked h ?_
          cases arg with
          | obj entries => exact KeySource.makes_keyOr (.nullAccess _) _
          | _ => exact .accessFailed _ _
  | none =>
      cases selfKey with
      | some key =>
          refine .asked h ?_
          simp only [source, KeySource.yield, bySelf]
          cases key arg with
          | error reason => exact .selfKeyFailed typeName key reason
          | ok v => exact KeySource.makes_keyOr (.nullSelfKey typeName key) v
      | none =>
          refine .asked h ?_
          simp only [source, KeySource.yield]
          cases arg with
          | null => exact absurd rfl h.2
          | _ => exact .key Json.noConfusion

theorem resolve_eq_iff : s.resolve method args = out ↔ s.Takes method args out :=
  ⟨fun h => h ▸ takes_resolve s method args, (takes_resolve s method args).unique⟩

theorem run_consult {α : Type} (f : Consulted) (call : Access) (arg : Json)
    (next : Except String Json → ExceptT CallerError (StateM (List Consulted)) α)
    (log : List Consulted) :
    (liftM (consult f call arg) >>= next).run.run log = (next (call arg)).run.run (log ++ [f]) :=
  rfl

theorem inquiry_eq (s : KeySpec) (method : String) (args : List Json) :
    (s.inquiry method args).run.run [] = s.resolve method args := by
  by_cases habsent : ∀ arg, ¬s.Presents args arg
  · rw [resolve_absent habsent]
    rcases not_presents.1 habsent with harg | harg <;> simp only [inquiry, harg] <;> rfl
  obtain ⟨arg, h⟩ : ∃ arg, s.Presents args arg := by simpa using habsent
  have hfilter : args[s.index]?.filter (!·.isNull) = some arg := by
    obtain ⟨harg, hne⟩ := h
    cases arg with
    | null => exact absurd rfl hne
    | _ => rw [harg]; rfl
  rw [resolve_present h]
  simp only [inquiry, hfilter]
  obtain ⟨index, access, typeName, selfKey⟩ := s
  cases access with
  | some access =>
      cases access with
      | method name call =>
          simp only [run_consult, byMethod, keyOr]
          cases call arg with
          | error reason => rfl
          | ok v => cases hv : PartitionKey.ofValue? v <;> simp only [hv] <;> rfl
      | field name =>
          cases arg with
          | obj entries =>
              simp only [byField, keyOr]
              cases PartitionKey.ofValue? ((Keyed.find? name entries).getD .null) <;> rfl
          | _ => rfl
  | none =>
      cases selfKey with
      | some key =>
          simp only [run_consult, bySelf, keyOr]
          cases key arg with
          | error reason => rfl
          | ok v => cases hv : PartitionKey.ofValue? v <;> simp only [hv] <;> rfl
      | none =>
          simp only [keyOr]
          cases PartitionKey.ofValue? arg <;> rfl

theorem resolve_ok_iff {k : PartitionKey} : (s.resolve method args).1 = .ok k ↔
    ∃ arg, s.Presents args arg ∧ s.source.yield arg = .ok k.value ∧ k.value ≠ .null := by
  have h := takes_resolve s method args
  revert h
  generalize s.resolve method args = out
  rintro (habsent | ⟨hp, hmakes⟩)
  · constructor
    · rintro ⟨⟩
    · rintro ⟨arg, hp, -⟩
      exact absurd hp (habsent arg)
  · rw [hmakes.ok_iff]
    constructor
    · exact fun h => ⟨_, hp, h⟩
    · rintro ⟨arg, hp', h⟩
      exact hp.unique hp' ▸ h

theorem consulted_resolve (h : s.Presents args arg) (method : String) :
    (s.resolve method args).2 = s.source.consults := by
  have htakes := takes_resolve s method args
  revert htakes
  generalize s.resolve method args = out
  rintro (habsent | ⟨-, -⟩)
  · exact absurd h (habsent arg)
  · rfl

theorem resolve_nullKeyArgument_iff {m : String} {index : Nat} :
    (s.resolve method args).1 = .error (.nullKeyArgument m index) ↔
      (∀ arg, ¬s.Presents args arg) ∧ m = method ∧ index = s.index := by
  have h := takes_resolve s method args
  revert h
  generalize s.resolve method args = out
  rintro (habsent | ⟨hp, hmakes⟩)
  · simp [habsent, eq_comm]
  · constructor
    · exact fun h => absurd h (hmakes.ne_nullKeyArgument m index)
    · exact fun h => absurd hp (h.1 _)

theorem index_lt_of_analyze {a : Analyzer} {root : Interface} {table : RouteTable} {r : Route}
    (h : a.analyze root = .ok table) (hr : r ∈ table.routes) (hs : r.target = .partitioned s) :
    s.index < r.signature.arity := by
  obtain ⟨-, found, -, declared, ht, rfl⟩ := Analyzer.analyze_eq_ok.1 h
  obtain ⟨i, -, m, -, hadmits⟩ := ht.admitted hr
  exact hadmits.signature ▸ hadmits.index_lt hs

/-- The key of a call is what its one source yields, and no other function is run for it. Only an
argument that is null or missing is reported as one, and of a call to an analyzed method none is
missing. -/
theorem key_taken (s : KeySpec) (method : String) (args : List Json) :
    (∀ out, s.resolve method args = out ↔ s.Takes method args out) ∧
      (s.inquiry method args).run.run [] = s.resolve method args ∧
      (∀ k, (s.resolve method args).1 = .ok k ↔
        ∃ arg, s.Presents args arg ∧ s.source.yield arg = .ok k.value ∧ k.value ≠ .null) ∧
      (∀ m index, (s.resolve method args).1 = .error (.nullKeyArgument m index) ↔
        (∀ arg, ¬s.Presents args arg) ∧ m = method ∧ index = s.index) ∧
      ∀ a root table r, Analyzer.analyze a root = .ok table → r ∈ table.routes →
        r.target = .partitioned s → args.length = r.signature.arity →
          args[s.index]? ≠ none ∧
            ((∀ arg, ¬s.Presents args arg) ↔ args[s.index]? = some .null) := by
  refine ⟨fun out => resolve_eq_iff, inquiry_eq s method args, fun k => resolve_ok_iff,
    fun m index => resolve_nullKeyArgument_iff, fun a root table r h hr hs hlen => ?_⟩
  have hsome : args[s.index]? ≠ none := by
    have hlt := index_lt_of_analyze h hr hs
    rw [ne_eq, List.getElem?_eq_none_iff]
    omega
  exact ⟨hsome, by rw [not_presents, or_iff_right hsome]⟩

def holder : Access := (Extractor.path ["holder"]).run

def banking : Analyzer :=
  ⟨.ofList [⟨"Account", [⟨"getHolder", .value, holder⟩], [], some (Extractor.path ["no"]).report⟩],
    .builtin, .ofMillis 60000⟩

def closing : Interface := .mk "bank::Closing" true []
  [⟨"close", [⟨"reason", "String", none⟩, ⟨"account", "Account", some (.property "holder")⟩],
    [.partitioned ⟨none, true⟩]⟩]

def byHolder : KeySpec :=
  ⟨1, some (.method "getHolder" holder), "Account",
    some fun v => .ok ((Extractor.path ["no"]).report v)⟩

theorem analyze_closing : banking.analyze closing = .ok ⟨"bank::Closing", "Closing",
    [⟨⟨"close", ["String", "Account"]⟩, .partitioned byHolder, .ofMillis 60000, true⟩]⟩ := by
  with_unfolding_all rfl

def closed : List Json := [.str "moved", .obj [("holder", .str "eve"), ("no", .str "7")]]

theorem key_taken_closed :
    byHolder.Takes "Closing.close" closed (.ok ⟨.str "eve"⟩, [.access]) ∧
      closed[byHolder.index]? ≠ none := by
  obtain ⟨htakes, -, -, -, hanalyzed⟩ := key_taken byHolder "Closing.close" closed
  obtain ⟨hsome, -⟩ := hanalyzed _ _ _ _ analyze_closing (List.mem_singleton_self _) rfl rfl
  exact ⟨(htakes _).1 rfl, hsome⟩

end KeySpec

end Switchboard

import Switchboard.Proofs.Interface.Hierarchy

namespace Switchboard

inductive ArgumentType.Probed (t : ArgumentType) (property : String) : KeyAccess → Prop
  | method {before after : List String} {name : String} {x : Accessor} :
      propertyCandidates property = before ++ name :: after →
      (∀ n ∈ before, t.accessor? n = none) → t.accessor? name = some x → x.returns = .value →
      Probed t property (.method x.name x.call)
  | field : (∀ n ∈ propertyCandidates property, t.accessor? n = none) →
      t.hasField property = true → Probed t property (.field property)

namespace Analyzer

inductive Reads (a : Analyzer) (p : Param) : KeyMark → Option KeyAccess → Prop
  | whole : Reads a p .whole none
  | property {name : String} {t : ArgumentType} {access : KeyAccess} :
      a.types.get? p.type = some t → t.Probed name access →
      Reads a p (.property name) (some access)

def selfKey (a : Analyzer) (p : Param) : Option Access :=
  ((a.types.get? p.type).bind ArgumentType.selfKey).map fun f v => .ok (f v)

inductive Keys (a : Analyzer) (params : List Param) : KeySpec → Prop
  | marked {before after : List Param} {p : Param} {mark : KeyMark} {access : Option KeyAccess} :
      params = before ++ p :: after → (∀ q ∈ before ++ after, q.key = none) →
      p.key = some mark → a.Reads p mark access →
      Keys a params ⟨before.length, access, p.type, a.selfKey p⟩

inductive Admits (a : Analyzer) (m : Method) : Route → Prop
  | balanced {name : String} {options : CallOptions} {p : RoutingPolicy} :
      m.routing = [.balanced name options] →
      Keyed.find? name a.policies.entries = some (.ok p) →
      Admits a m
        ⟨m.signature, .balanced p, options.timeout.getD a.defaultTimeout, options.interrupt⟩
  | partitioned {options : CallOptions} {spec : KeySpec} :
      m.routing = [.partitioned options] → a.Keys m.params spec →
      Admits a m
        ⟨m.signature, .partitioned spec, options.timeout.getD a.defaultTimeout, options.interrupt⟩

end Analyzer

variable {a : Analyzer} {m : Method} {r : Route} {p : Param} {params : List Param}
  {spec : KeySpec} {t : ArgumentType} {q : String}

theorem ArgumentType.probe_eq_ok {index : Nat} {typeName property : String} {access : KeyAccess} :
    t.probe q index typeName property = .ok access ↔ t.Probed property access := by
  unfold probe
  constructor
  · intro h
    split at h
    · next x hx =>
        obtain ⟨before, name, after, hsplit, hfound, hnone⟩ := List.findSome?_eq_some_iff.1 hx
        split at h
        · cases h
        · next hvalue =>
            cases h
            exact .method hsplit hnone hfound hvalue
    · next hnone =>
        split at h
        · next hfield =>
            cases h
            exact .field (List.findSome?_eq_none_iff.1 hnone) hfield
        · cases h
  · intro h
    cases h with
    | @method before after name x hsplit hnone hfound hvalue =>
        have hx : (propertyCandidates property).findSome? t.accessor? = some x :=
          List.findSome?_eq_some_iff.2 ⟨before, name, after, hsplit, hfound, hnone⟩
        simp [hx, hvalue]
    | field hnone hfield =>
        have hx : (propertyCandidates property).findSome? t.accessor? = none :=
          List.findSome?_eq_none_iff.2 hnone
        simp [hx, hfield]

namespace Analyzer

theorem keyAccess_eq_ok {index : Nat} {mark : KeyMark} {access : Option KeyAccess} :
    a.keyAccess q index p mark = .ok access ↔ a.Reads p mark access := by
  cases mark with
  | whole =>
      constructor
      · intro h
        cases h
        exact .whole
      · intro h
        cases h
        rfl
  | property name =>
      constructor
      · intro h
        simp only [keyAccess] at h
        split at h
        · next t ht =>
            obtain ⟨x, hx, rfl⟩ := map_eq_ok.1 h
            exact .property ht (ArgumentType.probe_eq_ok.1 hx)
        · cases h
      · intro h
        cases h with
        | property ht hp =>
            simp only [keyAccess, ht]
            rw [ArgumentType.probe_eq_ok.2 hp]
            rfl

theorem marked_eq_nil {k : Nat} :
    (params.zipIdx k).filterMap (fun (p, i) => p.key.map fun mark => (i, p, mark)) = [] ↔
      ∀ p ∈ params, p.key = none := by
  induction params generalizing k with
  | nil => simp
  | cons p params ih =>
      cases hp : p.key with
      | none => simp [List.zipIdx_cons, hp, ih]
      | some mark => simp [List.zipIdx_cons, hp]

theorem marked_eq_singleton {k n : Nat} {mark : KeyMark} :
    (params.zipIdx k).filterMap (fun (p, i) => p.key.map fun mark => (i, p, mark)) =
        [(n, p, mark)] ↔
      ∃ before after, params = before ++ p :: after ∧ (∀ q ∈ before ++ after, q.key = none) ∧
        p.key = some mark ∧ n = k + before.length := by
  induction params generalizing k with
  | nil => simp
  | cons first params ih =>
      cases hfirst : first.key with
      | none =>
          rw [List.zipIdx_cons, List.filterMap_cons_none (by simp [hfirst]), ih]
          constructor
          · rintro ⟨before, after, rfl, hnone, hmark, rfl⟩
            refine ⟨first :: before, after, rfl, ?_, hmark, by simp; omega⟩
            rintro q (_ | ⟨_, hq⟩)
            · exact hfirst
            · exact hnone q hq
          · rintro ⟨before, after, hsplit, hnone, hmark, rfl⟩
            cases before with
            | nil =>
                cases hsplit
                rw [hfirst] at hmark
                cases hmark
            | cons q before =>
                cases hsplit
                exact ⟨before, after, rfl, fun q hq => hnone q (List.mem_cons_of_mem _ hq), hmark,
                  by simp; omega⟩
      | some other =>
          rw [List.zipIdx_cons, List.filterMap_cons_some (b := (k, first, other)) (by simp [hfirst]),
            List.cons.injEq, marked_eq_nil]
          constructor
          · rintro ⟨heq, hnone⟩
            cases heq
            exact ⟨[], params, rfl, by simpa using hnone, hfirst, rfl⟩
          · rintro ⟨before, after, hsplit, hnone, hmark, rfl⟩
            cases before with
            | nil =>
                cases hsplit
                rw [hfirst] at hmark
                cases hmark
                exact ⟨rfl, hnone⟩
            | cons q before =>
                cases hsplit
                rw [hnone _ (List.mem_cons_self ..)] at hfirst
                cases hfirst

theorem keySpec_eq_ok : a.keySpec q params = .ok spec ↔ a.Keys params spec := by
  constructor
  · intro h
    unfold keySpec at h
    split at h
    · cases h
    split at h
    · next index p mark hmarked =>
        obtain ⟨access, hx, hret⟩ := bind_eq_ok.1 h
        obtain ⟨before, after, hsplit, hnone, hmark, rfl⟩ := marked_eq_singleton.1 hmarked
        cases hret
        rw [Nat.zero_add]
        exact .marked hsplit hnone hmark (keyAccess_eq_ok.1 hx)
    · cases h
    · cases h
  · rintro ⟨hsplit, hnone, hmark, hreads⟩
    rename_i before after p mark access
    have hmarked : marked params = [(before.length, p, mark)] :=
      marked_eq_singleton.2 ⟨before, after, hsplit, hnone, hmark, (Nat.zero_add _).symm⟩
    unfold keySpec
    split
    · cases before <;> cases hsplit
    · simp only [hmarked, keyAccess_eq_ok.2 hreads]
      rfl

theorem build_eq_ok {policies : PolicyRegistry} {name : String} {p : RoutingPolicy} :
    policies.build name = .ok p ↔ Keyed.find? name policies.entries = some (.ok p) := by
  unfold PolicyRegistry.build
  cases Keyed.find? name policies.entries with
  | none => simp
  | some x => simp

theorem route_eq_ok : a.route q m = .ok r ↔ a.Admits m r := by
  constructor
  · intro h
    unfold route at h
    split at h
    · next routing hrouting =>
        obtain ⟨⟨goal, options⟩, hx, hret⟩ := bind_eq_ok.1 h
        cases hret
        cases routing with
        | balanced name options =>
            simp only [target] at hx
            split at hx
            · next p hp =>
                cases hx
                exact .balanced hrouting (build_eq_ok.1 hp)
            · cases hx
        | partitioned options =>
            obtain ⟨spec, hk, hsame⟩ := map_eq_ok.1 hx
            cases hsame
            exact .partitioned hrouting (keySpec_eq_ok.1 hk)
    · cases h
    · cases h
  · intro h
    cases h with
    | balanced hrouting hp =>
        simp only [route, hrouting, target, build_eq_ok.2 hp]
        rfl
    | partitioned hrouting hk =>
        simp only [route, hrouting, target, keySpec_eq_ok.2 hk]
        rfl

theorem Admits.signature (h : a.Admits m r) : r.signature = m.signature := by
  cases h <;> rfl

theorem Admits.index_lt (h : a.Admits m r) (hr : r.target = .partitioned spec) :
    spec.index < m.signature.arity := by
  cases h with
  | balanced hrouting hp => cases hr
  | partitioned hrouting hk =>
      cases hr
      obtain ⟨hsplit, -, -, -⟩ := hk
      simp only [Signature.arity, Method.signature, Method.paramTypes, hsplit, List.length_map,
        List.length_append, List.length_cons]
      omega

end Analyzer

end Switchboard

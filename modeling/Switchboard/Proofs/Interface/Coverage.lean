import Mathlib.Data.List.Forall2
import Mathlib.Data.List.Nodup
import Mathlib.Data.List.Pairwise
import Switchboard.Proofs.Interface.Admission

namespace Switchboard

namespace Interface

def declarations (found : List Interface) : List (Interface × Method) :=
  found.flatMap fun i => i.methods.map fun m => (i, m)

def signatures (found : List Interface) : List Signature :=
  (declarations found).map fun x => x.2.signature

structure Apart (declared : Interface → Prop) : Prop where
  within : ∀ i, declared i → (i.methods.map Method.signature).Nodup
  between : ∀ i j, declared i → declared j → i ≠ j →
    ∀ m ∈ i.methods, ∀ n ∈ j.methods, m.signature ≠ n.signature

variable {found : List Interface} {i : Interface} {m : Method}

theorem mem_declarations : (i, m) ∈ declarations found ↔ i ∈ found ∧ m ∈ i.methods := by
  simp [declarations]

theorem signatures_nodup (hd : found.Nodup) :
    (signatures found).Nodup ↔ Apart (· ∈ found) := by
  have hmap : signatures found = found.flatMap fun i => i.methods.map Method.signature := by
    simp [signatures, declarations, List.map_flatMap, Function.comp_def]
  rw [hmap, List.nodup_flatMap]
  constructor
  · rintro ⟨hwithin, hbetween⟩
    have hsymm : Std.Symm (Function.onFun List.Disjoint fun i : Interface =>
        i.methods.map Method.signature) := ⟨fun _ _ h _ hs hs' => h hs' hs⟩
    refine ⟨hwithin, fun i j hi hj hne m hm n hn heq => ?_⟩
    exact hbetween.forall hi hj hne (List.mem_map_of_mem hm) (heq ▸ List.mem_map_of_mem hn)
  · rintro ⟨hwithin, hbetween⟩
    refine ⟨hwithin, List.Nodup.pairwise_of_forall_ne hd fun i hi j hj hne s hs hs' => ?_⟩
    obtain ⟨m, hm, rfl⟩ := List.mem_map.1 hs
    obtain ⟨n, hn, heq⟩ := List.mem_map.1 hs'
    exact hbetween i j hi hj hne m hm n hn heq.symm

end Interface

theorem RouteTable.route?_of_nodup {t : RouteTable} {r : Route}
    (hd : (t.routes.map Route.signature).Nodup) (hr : r ∈ t.routes) :
    t.route? r.signature = some r := by
  cases hfind : t.route? r.signature with
  | none => simpa using List.find?_eq_none.1 hfind r hr
  | some r' =>
      have hsame : r'.signature = r.signature := by simpa using List.find?_some hfind
      rw [List.inj_on_of_nodup_map hd (List.mem_of_find?_eq_some hfind) hr hsame]

theorem exists_of_forall₂ {α β : Type} {R : α → β → Prop} {xs : List α} {ys : List β} {x : α}
    (h : List.Forall₂ R xs ys) (hx : x ∈ xs) : ∃ y ∈ ys, R x y := by
  induction h with
  | nil => cases hx
  | @cons first y xs ys hy hrest ih =>
      rcases List.mem_cons.1 hx with rfl | hx
      · exact ⟨y, List.mem_cons_self .., hy⟩
      · obtain ⟨z, hz, hxz⟩ := ih hx
        exact ⟨z, List.mem_cons_of_mem y hz, hxz⟩

namespace Analyzer

open Interface (declarations signatures)

def Declares (a : Analyzer) (x : Interface × Method) (d : Declared) : Prop :=
  d.owner = x.1.name ∧ a.Admits x.2 d.route

variable {a : Analyzer} {root i : Interface} {m : Method} {found : List Interface}
  {done out declared : List Declared} {table : RouteTable} {n s : String} {x : Interface × Method}
  {queue : List (Interface × Method)}

theorem declare_eq_ok : a.declare i done m = .ok out ↔
    m.name ≠ "" ∧ (∀ d ∈ done, d.route.signature ≠ m.signature) ∧
      ∃ d, a.Declares (i, m) d ∧ out = done ++ [d] := by
  simp only [declare, String.isEmpty_iff]
  constructor
  · intro h
    split at h
    · cases h
    next hname =>
    split at h
    · cases h
    next hnone =>
    obtain ⟨r, hr, hret⟩ := bind_eq_ok.1 h
    cases hret
    refine ⟨hname, ?_, ⟨i.name, r⟩, ⟨rfl, route_eq_ok.1 hr⟩, rfl⟩
    simpa using hnone
  · rintro ⟨hname, hfresh, ⟨owner, r⟩, ⟨rfl, hadmits⟩, rfl⟩
    have hnone : done.find? (·.route.signature = m.signature) = none := by
      simpa using hfresh
    rw [if_neg hname, hnone]
    simp only [route_eq_ok.2 hadmits]
    rfl

theorem Declares.exists_forall₂ (h : ∀ x ∈ queue, ∃ d, a.Declares x d) :
    ∃ declared, List.Forall₂ a.Declares queue declared := by
  induction queue with
  | nil => exact ⟨[], .nil⟩
  | cons x queue ih =>
      obtain ⟨d, hd⟩ := h x (List.mem_cons_self ..)
      obtain ⟨declared, hrest⟩ := ih fun y hy => h y (List.mem_cons_of_mem x hy)
      exact ⟨d :: declared, .cons hd hrest⟩

theorem foldlM_declareAll (a : Analyzer) (found : List Interface) (done : List Declared) :
    found.foldlM a.declareAll done =
      (declarations found).foldlM (fun done x => a.declare x.1 done x.2) done := by
  induction found generalizing done with
  | nil => rfl
  | cons i found ih =>
      simp only [declarations, List.flatMap_cons, List.foldlM_append, List.foldlM_cons,
        List.foldlM_map]
      exact bind_congr fun done => ih done

theorem foldlM_declare_eq_ok :
    queue.foldlM (fun done x => a.declare x.1 done x.2) done = .ok out ↔
      (∀ x ∈ queue, x.2.name ≠ "") ∧
        (∀ x ∈ queue, ∀ d ∈ done, d.route.signature ≠ x.2.signature) ∧
        (queue.map fun x => x.2.signature).Nodup ∧
        ∃ new, List.Forall₂ a.Declares queue new ∧ out = done ++ new := by
  induction queue generalizing done with
  | nil =>
      constructor
      · intro h
        cases h
        exact ⟨by simp, by simp, by simp, [], .nil, by simp⟩
      · rintro ⟨-, -, -, _, hnew, rfl⟩
        cases hnew
        simp [pure, Except.pure]
  | cons x queue ih =>
      rw [List.foldlM_cons, bind_eq_ok]
      constructor
      · rintro ⟨mid, hx, h⟩
        obtain ⟨hname, hfresh, d, hd, rfl⟩ := declare_eq_ok.1 hx
        obtain ⟨hnames, hapart, hnodup, new, hnew, rfl⟩ := ih.1 h
        -- The entry of `x` is already there when the rest of the queue is declared.
        have hnotin : x.2.signature ∉ queue.map fun x => x.2.signature := by
          intro hmem
          obtain ⟨y, hy, heq⟩ := List.mem_map.1 hmem
          refine hapart y hy d (List.mem_append_right _ (List.mem_singleton_self d)) ?_
          exact hd.2.signature.trans heq.symm
        refine ⟨?_, ?_, List.nodup_cons.2 ⟨hnotin, hnodup⟩, d :: new, .cons hd hnew, by simp⟩
        · rintro y (_ | ⟨_, hy⟩)
          · exact hname
          · exact hnames y hy
        · rintro y (_ | ⟨_, hy⟩) e he
          · exact hfresh e he
          · exact hapart y hy e (List.mem_append_left _ he)
      · rintro ⟨hnames, hapart, hnodup, new, hnew, rfl⟩
        obtain ⟨d, rest, hd, hrest, rfl⟩ := List.forall₂_cons_left_iff.1 hnew
        obtain ⟨hnotin, hnodup⟩ := List.nodup_cons.1 hnodup
        have hfresh : ∀ y ∈ queue, ∀ e ∈ done ++ [d], e.route.signature ≠ y.2.signature := by
          intro y hy e he heq
          rcases List.mem_append.1 he with he | he
          · exact hapart y (List.mem_cons_of_mem _ hy) e he heq
          · obtain rfl := List.mem_singleton.1 he
            exact hnotin (List.mem_map.2 ⟨y, hy, heq.symm.trans hd.2.signature⟩)
        refine ⟨done ++ [d], declare_eq_ok.2 ⟨hnames x (List.mem_cons_self ..),
          hapart x (List.mem_cons_self ..), d, hd, rfl⟩, ?_⟩
        exact ih.2 ⟨fun y hy => hnames y (List.mem_cons_of_mem _ hy), hfresh, hnodup, rest, hrest,
          by simp⟩

structure Tabulates (a : Analyzer) (found : List Interface) (declared : List Declared) : Prop where
  named : ∀ x ∈ declarations found, x.2.name ≠ ""
  distinct : (signatures found).Nodup
  matched : List.Forall₂ a.Declares (declarations found) declared

theorem foldlM_declareAll_eq_ok :
    found.foldlM a.declareAll [] = .ok declared ↔ a.Tabulates found declared := by
  rw [foldlM_declareAll, foldlM_declare_eq_ok]
  constructor
  · rintro ⟨hnames, -, hnodup, new, hnew, rfl⟩
    exact ⟨hnames, hnodup, hnew⟩
  · rintro ⟨hnames, hnodup, hnew⟩
    exact ⟨hnames, by simp, hnodup, declared, hnew, rfl⟩

theorem analyze_eq_ok : a.analyze root = .ok table ↔
    root.name ≠ "" ∧ ∃ found, root.hierarchy = .ok found ∧ ∃ declared, a.Tabulates found declared ∧
      table = ⟨root.name, root.simpleName, declared.map Declared.route⟩ := by
  simp only [analyze, String.isEmpty_iff]
  by_cases hname : root.name = ""
  · simp [hname]
  · rw [if_neg hname]
    simp only [bind_eq_ok, foldlM_declareAll_eq_ok, pure, Except.pure, Except.ok.injEq, ne_eq,
      hname, not_false_eq_true, true_and, eq_comm (a := table)]

theorem Tabulates.signatures_eq (h : a.Tabulates found declared) :
    (declared.map Declared.route).map Route.signature = signatures found := by
  have hsame : List.Forall₂ (· = ·) (signatures found)
      ((declared.map Declared.route).map Route.signature) := by
    simp only [signatures, List.forall₂_map_left_iff, List.forall₂_map_right_iff]
    exact h.matched.imp fun _ _ hd => hd.2.signature.symm
  rw [List.forall₂_eq_eq_eq] at hsame
  exact hsame.symm

theorem Tabulates.route (h : a.Tabulates found declared) (hi : i ∈ found) (hm : m ∈ i.methods) :
    ∃ r, (RouteTable.mk n s (declared.map Declared.route)).route? m.signature = some r ∧
      a.Admits m r := by
  obtain ⟨d, hd, -, hadmits⟩ :=
    exists_of_forall₂ h.matched (Interface.mem_declarations.2 ⟨hi, hm⟩)
  refine ⟨d.route, ?_, hadmits⟩
  rw [← hadmits.signature]
  refine RouteTable.route?_of_nodup ?_ (List.mem_map_of_mem hd)
  exact h.signatures_eq ▸ h.distinct

theorem Tabulates.admitted (h : a.Tabulates found declared) {r : Route}
    (hr : r ∈ declared.map Declared.route) :
    ∃ i ∈ found, ∃ m ∈ i.methods, a.Admits m r := by
  obtain ⟨d, hd, rfl⟩ := List.mem_map.1 hr
  obtain ⟨⟨i, m⟩, hx, -, hadmits⟩ := exists_of_forall₂ (h.matched.flip) hd
  obtain ⟨hi, hm⟩ := Interface.mem_declarations.1 hx
  exact ⟨i, hi, m, hm, hadmits⟩

theorem route?_of_analyze (h : a.analyze root = .ok table) {r : Route} (hr : r ∈ table.routes) :
    table.route? r.signature = some r := by
  obtain ⟨-, found, -, declared, ht, rfl⟩ := analyze_eq_ok.1 h
  refine RouteTable.route?_of_nodup ?_ hr
  exact ht.signatures_eq ▸ ht.distinct

theorem exists_tabulates (hd : (signatures found).Nodup)
    (hm : ∀ i ∈ found, ∀ m ∈ i.methods, m.name ≠ "" ∧ ∃ r, a.Admits m r) :
    ∃ declared, a.Tabulates found declared := by
  have hnamed : ∀ x ∈ declarations found, x.2.name ≠ "" ∧ ∃ r, a.Admits x.2 r := by
    rintro ⟨i, m⟩ hx
    obtain ⟨hi, hmi⟩ := Interface.mem_declarations.1 hx
    exact hm i hi m hmi
  obtain ⟨declared, hmatched⟩ := Declares.exists_forall₂ (a := a) fun x hx =>
    (hnamed x hx).2.elim fun r hr => ⟨⟨x.1.name, r⟩, rfl, hr⟩
  exact ⟨declared, fun x hx => (hnamed x hx).1, hd, hmatched⟩

/-- What is reached has its routes, unless another declaration was taken for one on the way. -/
theorem analyze_covers (h : a.analyze root = .ok table) (hi : root.Reaches i) :
    (i.exposable = true ∧
      ∀ m ∈ i.methods, ∃ r, table.route? m.signature = some r ∧ a.Admits m r) ∨
      root.Shadowed i := by
  obtain ⟨-, found, hfound, declared, ht, rfl⟩ := analyze_eq_ok.1 h
  rcases Interface.found_or_shadowed hfound hi with hmem | hs
  · have he : i.exposable = true := (Interface.found_of_walk hfound).exposable i hmem
    exact Or.inl ⟨he, fun m hm => ht.route hmem hm⟩
  · exact Or.inr hs

def emptyBase : Interface := .mk "bank::Base" true [] []

def audit : Method := ⟨"audit", [], [.balanced "round-robin" ⟨none, false⟩]⟩

def hiddenBase : Interface := .mk "bank::Base" false [] [audit]

def twoBases : Interface := .mk "bank::A" true [emptyBase, hiddenBase] []

def builtin : Analyzer := ⟨{}, .builtin, .ofMillis 60000⟩

theorem twoBases_reaches : twoBases.Reaches hiddenBase :=
  .single (by simp [twoBases, Interface.parents])

theorem analyze_twoBases : builtin.analyze twoBases = .ok ⟨"bank::A", "A", []⟩ := by
  have hfound : twoBases.hierarchy = .ok [twoBases, emptyBase] := by
    simp [Interface.hierarchy, Interface.walk, twoBases, emptyBase, hiddenBase, Interface.name,
      Interface.exposable, Interface.parents, Except.map]
  refine analyze_eq_ok.2 ⟨by decide, _, hfound, [], ⟨?_, ?_, .nil⟩, rfl⟩
  · intro x hx
    cases hx
  · exact List.nodup_nil

theorem analyze_covers_twoBases :
    builtin.analyze twoBases = .ok ⟨"bank::A", "A", []⟩ ∧ twoBases.Reaches hiddenBase ∧
      twoBases.Shadowed hiddenBase := by
  refine ⟨analyze_twoBases, twoBases_reaches, ?_⟩
  rcases analyze_covers analyze_twoBases twoBases_reaches with ⟨he, -⟩ | hs
  · cases he
  · exact hs

theorem hidden_base_passed_over : ¬∀ (a : Analyzer) (root i : Interface) (table : RouteTable),
    a.analyze root = .ok table → root.Reaches i →
      i.exposable = true ∧
        ∀ m ∈ i.methods, ∃ r, table.route? m.signature = some r ∧ a.Admits m r := by
  intro h
  obtain ⟨he, -⟩ := h builtin twoBases hiddenBase _ analyze_twoBases twoBases_reaches
  cases he

structure Valid (a : Analyzer) (root : Interface) : Prop where
  named : root.name ≠ ""
  exposable : ∀ i, root.Reaches i → i.exposable = true
  admitted : ∀ i, root.Reaches i → ∀ m ∈ i.methods, m.name ≠ "" ∧ ∃ r, a.Admits m r
  apart : Interface.Apart root.Reaches

structure Publishes (a : Analyzer) (root : Interface) (table : RouteTable) : Prop where
  interface : table.interface = root.name
  service : table.service = root.simpleName
  distinct : (table.routes.map Route.signature).Nodup
  declared : ∀ s, s ∈ table.routes.map Route.signature ↔
    ∃ i m, root.Reaches i ∧ m ∈ i.methods ∧ m.signature = s
  routed : ∀ i m, root.Reaches i → m ∈ i.methods →
    ∃ r, table.route? m.signature = some r ∧ a.Admits m r
  bounded : ∀ r ∈ table.routes, ∀ spec, r.target = .partitioned spec →
    spec.index < r.signature.arity

theorem Tabulates.publishes (h : a.Tabulates found declared)
    (hfound : ∀ i, i ∈ found ↔ root.Reaches i) :
    a.Publishes root ⟨root.name, root.simpleName, declared.map Declared.route⟩ where
  interface := rfl
  service := rfl
  distinct := h.signatures_eq ▸ h.distinct
  declared s := by
    rw [h.signatures_eq]
    simp only [signatures, List.mem_map, Prod.exists, Interface.mem_declarations, hfound, and_assoc]
  routed i m hi hm := h.route ((hfound i).2 hi) hm
  bounded r hr spec hspec := by
    obtain ⟨i, -, m, -, hadmits⟩ := h.admitted hr
    exact hadmits.signature ▸ hadmits.index_lt hspec

theorem valid_of_tabulates (hc : root.Consistent) (hname : root.name ≠ "")
    (hfound : root.hierarchy = .ok found) (h : a.Tabulates found declared) : a.Valid root where
  named := hname
  exposable i hi := (Interface.found_of_walk hfound).exposable i ((hc.mem_hierarchy hfound).2 hi)
  admitted i hi m hm := by
    have hmem : i ∈ found := (hc.mem_hierarchy hfound).2 hi
    obtain ⟨r, -, hadmits⟩ := h.route (n := "") (s := "") hmem hm
    exact ⟨h.named (i, m) (Interface.mem_declarations.2 ⟨hmem, hm⟩), r, hadmits⟩
  apart := by
    have hapart := (Interface.signatures_nodup ?_).1 h.distinct
    · simpa only [hc.mem_hierarchy hfound] using hapart
    · exact (Interface.found_of_walk hfound).distinct.of_map _

theorem analyze_iff_valid (hc : root.Consistent) :
    ((∃ table, a.analyze root = .ok table) ↔ a.Valid root) ∧
      ∀ table, a.analyze root = .ok table → a.Publishes root table := by
  refine ⟨⟨?_, ?_⟩, ?_⟩
  · rintro ⟨table, h⟩
    obtain ⟨hname, found, hfound, declared, ht, -⟩ := analyze_eq_ok.1 h
    exact valid_of_tabulates hc hname hfound ht
  · intro hv
    cases hfound : root.hierarchy with
    | error e =>
        obtain ⟨i, hi, he, -⟩ := Interface.hierarchy_error hfound
        rw [hv.exposable i hi] at he
        cases he
    | ok found =>
        have hmem := fun i => hc.mem_hierarchy (i := i) hfound
        have hapart : Interface.Apart (· ∈ found) := by
          simpa only [hmem] using hv.apart
        have hdistinct : (signatures found).Nodup :=
          (Interface.signatures_nodup ((Interface.found_of_walk hfound).distinct.of_map _)).2 hapart
        obtain ⟨declared, ht⟩ := exists_tabulates hdistinct fun i hi =>
          hv.admitted i ((hmem i).1 hi)
        exact ⟨_, analyze_eq_ok.2 ⟨hv.named, found, hfound, declared, ht, rfl⟩⟩
  · intro table h
    obtain ⟨-, found, hfound, declared, ht, rfl⟩ := analyze_eq_ok.1 h
    exact ht.publishes fun i => hc.mem_hierarchy hfound

def balance : Method :=
  ⟨"balance", [⟨"account", "u64", some .whole⟩], [.partitioned ⟨none, true⟩]⟩

def auditing : Interface := .mk "bank::Auditing" true [] [audit]

def reading : Interface := .mk "bank::Reading" true [auditing] [balance]

def writing : Interface := .mk "bank::Writing" true [auditing] []

def diamond : Interface := .mk "bank::Bank" true [reading, writing] []

theorem diamond_closed : ∀ i ∈ [diamond, reading, writing, auditing], ∀ p ∈ i.parents,
    p ∈ [diamond, reading, writing, auditing] := by
  simp [diamond, reading, writing, auditing, Interface.parents]

theorem diamond_consistent : diamond.Consistent :=
  .of_closed (by simp) diamond_closed (by decide)

theorem diamond_hierarchy : diamond.hierarchy = .ok [diamond, reading, writing, auditing] := by
  simp [Interface.hierarchy, Interface.walk, diamond, reading, writing, auditing, Interface.name,
    Interface.exposable, Interface.parents, Except.map]

theorem admits_balance : ∃ r, builtin.Admits balance r := by
  have hsplit : balance.params = [] ++ ⟨"account", "u64", some .whole⟩ :: [] := rfl
  exact ⟨_, .partitioned rfl (.marked hsplit (by simp) rfl .whole)⟩

theorem admits_audit : ∃ r, builtin.Admits audit r := ⟨_, .balanced rfl rfl⟩

theorem analyze_diamond : ∃ table, builtin.analyze diamond = .ok table := by
  have hadmitted : ∀ i ∈ [diamond, reading, writing, auditing], ∀ m ∈ i.methods,
      m.name ≠ "" ∧ ∃ r, builtin.Admits m r := by
    have hbalance : balance.name ≠ "" := by decide
    have haudit : audit.name ≠ "" := by decide
    simp [diamond, reading, writing, auditing, Interface.methods, hbalance, haudit,
      admits_balance, admits_audit]
  obtain ⟨declared, ht⟩ := exists_tabulates (by decide) hadmitted
  exact ⟨_, analyze_eq_ok.2 ⟨by decide, _, diamond_hierarchy, declared, ht, rfl⟩⟩

theorem analyze_iff_valid_of_diamond : diamond.Consistent ∧ builtin.Valid diamond ∧
    ∃ table, builtin.analyze diamond = .ok table ∧ builtin.Publishes diamond table := by
  obtain ⟨hiff, hpublishes⟩ := analyze_iff_valid (a := builtin) diamond_consistent
  obtain ⟨table, h⟩ := analyze_diamond
  exact ⟨diamond_consistent, hiff.1 ⟨table, h⟩, table, h, hpublishes table h⟩

end Analyzer

end Switchboard

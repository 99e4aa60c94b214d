import Switchboard.Proofs.Dispatch.Preparation
import Switchboard.Proofs.Interface.Coverage

namespace Switchboard

/-- A balanced route chooses by place, as with the built-in policies whatever is drawn. -/
def Route.ByPlace (r : Route) : Prop :=
  ∀ p, r.target = .balanced p → ∃ name place next, p = .byPlace name place next

variable {i : Invocation} {w : World}

theorem PolicyRegistry.build_builtinWith {draw : Cursor → Nat} {name : String} {p : RoutingPolicy}
    (h : (builtinWith draw).build name = .ok p) : p = .roundRobin ∨ p = .drawn draw := by
  unfold build builtinWith register at h
  simp only at h
  by_cases hr : name = (RoutingPolicy.drawn draw).name
  · subst hr
    rw [Keyed.find?_insert_self] at h
    cases h
    exact Or.inr rfl
  rw [Keyed.find?_insert_of_ne hr] at h
  by_cases hb : name = RoutingPolicy.roundRobin.name
  · subst hb
    rw [Keyed.find?_insert_self] at h
    cases h
    exact Or.inl rfl
  · rw [Keyed.find?_insert_of_ne hb] at h
    cases h

theorem Route.byPlace_of_analyze {draw : Cursor → Nat} {types : TypeRegistry} {timeout : Duration}
    {root : Interface} {table : RouteTable} {r : Route}
    (h : (Analyzer.mk types (.builtinWith draw) timeout).analyze root = .ok table)
    (hr : r ∈ table.routes) : r.ByPlace := by
  obtain ⟨-, found, -, declared, ht, rfl⟩ := Analyzer.analyze_eq_ok.1 h
  obtain ⟨i, -, m, -, hadmits⟩ := ht.admitted hr
  intro p hp
  cases hadmits with
  | balanced _ hname =>
      cases hp
      rcases PolicyRegistry.build_builtinWith (Analyzer.build_eq_ok.2 hname) with rfl | rfl
      · exact ⟨_, _, _, rfl⟩
      · exact ⟨_, _, _, rfl⟩
  | partitioned _ _ => cases hp

theorem Route.ByPlace.chosen {p : RoutingPolicy} (h : i.route.ByPlace)
    (hp : i.route.target = .balanced p) {alive : List Member} {call : Call} {cursor : Cursor}
    {m : Member} (hm : (p.choose alive call cursor).1 = .ok m) : m ∈ dataMembers alive := by
  obtain ⟨name, place, next, rfl⟩ := h p hp
  exact RoutingPolicy.byPlace_choose_mem hm

theorem Route.ByPlace.prepare {call : Call} {target : Option Member} (h : i.route.ByPlace)
    (hp : (i.prepare w).1 = .ok (call, target)) : ∀ m, target = some m → m ∈ w.alive := by
  have hprep := i.prepares w
  generalize i.prepare w = out at hp hprep
  cases hprep with
  | keyed _ _ =>
      cases hp
      rintro m ⟨⟩
  | targeted hbalanced hchoice =>
      cases hp
      rintro m ⟨⟩
      exact (mem_dataMembers.1 (h.chosen hbalanced (congrArg Prod.fst hchoice))).1
  | _ => cases hp

theorem Route.ByPlace.without_members {p : RoutingPolicy} (h : i.route.ByPlace)
    (hp : i.route.target = .balanced p) (hw : w.alive = []) :
    (i.prepare w).1 = .error (.noTarget i.qualified (.noMembers p.name)) := by
  obtain ⟨name, place, next, rfl⟩ := h p hp
  simp [Invocation.prepare, hp, hw, RoutingPolicy.byPlace, dataMembers]

end Switchboard

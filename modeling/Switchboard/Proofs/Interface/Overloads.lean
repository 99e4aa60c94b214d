import Mathlib.Data.List.Lex
import Mathlib.Data.Prod.Lex
import Mathlib.Data.String.Basic
import Switchboard.Proofs.Interface.Coverage

namespace Switchboard

theorem Signature.le_iff {a b : Signature} : a.le b = true ↔
    toLex (a.name, a.paramTypes) ≤ toLex (b.name, b.paramTypes) := by
  simp [Signature.le, Prod.Lex.le_iff]

namespace RouteTable

def overloads (t : RouteTable) (name : String) (arity : Nat) : List Route :=
  t.routes.filter fun r => r.signature.name = name && r.signature.arity = arity

variable {t t' table : RouteTable} {name : String} {arity : Nat} {r : Route}

theorem mem_overloads : r ∈ t.overloads name arity ↔
    r ∈ t.routes ∧ r.signature.name = name ∧ r.signature.arity = arity := by
  simp [overloads]

theorem find_perm (t : RouteTable) (name : String) (arity : Nat) :
    (t.find name arity).Perm (t.overloads name arity) := List.mergeSort_perm ..

theorem find_sorted (t : RouteTable) (name : String) (arity : Nat) :
    (t.find name arity).Pairwise fun a b => a.signature.le b.signature = true := by
  apply List.pairwise_mergeSort
  · intro a b c hab hbc
    rw [Signature.le_iff] at hab hbc ⊢
    exact hab.trans hbc
  · intro a b
    rw [Bool.or_eq_true, Signature.le_iff, Signature.le_iff]
    exact le_total ..

theorem find_strict (hd : (t.routes.map Route.signature).Nodup) (name : String) (arity : Nat) :
    ((t.find name arity).map fun r => r.signature.paramTypes).Pairwise (· < ·) := by
  have hnodup : ((t.find name arity).map Route.signature).Nodup := by
    rw [((t.find_perm name arity).map Route.signature).nodup_iff]
    exact hd.sublist (List.filter_sublist.map _)
  have hboth := (t.find_sorted name arity).and (List.pairwise_map.1 hnodup)
  refine List.pairwise_map.2 (List.Pairwise.imp_of_mem ?_ hboth)
  rintro a b ha hb ⟨hle, hne⟩
  have hname : a.signature.name = b.signature.name :=
    (mem_find.1 ha).2.1.trans (mem_find.1 hb).2.1.symm
  rw [Signature.le_iff, Prod.Lex.le_iff] at hle
  rcases hle with hlt | ⟨-, hle⟩
  · exact absurd hname hlt.ne
  · refine lt_of_le_of_ne hle fun htypes => hne ?_
    exact congrArg₂ Signature.mk hname htypes

theorem find_of_perm (hd : (table.routes.map Route.signature).Nodup)
    (ht : t.routes.Perm table.routes) (name : String) (arity : Nat) :
    t.find name arity = table.find name arity := by
  have hd' : (t.routes.map Route.signature).Nodup := (ht.map _).nodup_iff.2 hd
  have hperm : (t.find name arity).Perm (table.find name arity) :=
    (t.find_perm name arity).trans ((ht.filter _).trans (table.find_perm name arity).symm)
  apply hperm.eq_of_pairwise
  · intro a b _ _ (hab : a.signature.paramTypes < b.signature.paramTypes) hba
    exact absurd hba hab.asymm
  · exact List.pairwise_map.1 (find_strict hd' name arity)
  · exact List.pairwise_map.1 (find_strict hd name arity)

theorem mem_find_iff_key (hr : r ∈ t.routes) {key : String × Nat} :
    r ∈ t.find key.1 key.2 ↔ key = (r.signature.name, r.signature.arity) := by
  rw [mem_find, and_iff_right hr, Prod.ext_iff, eq_comm, eq_comm (a := key.2)]

theorem route?_eq_some_iff (hd : (t.routes.map Route.signature).Nodup) {s : Signature} :
    t.route? s = some r ↔ r ∈ t.routes ∧ r.signature = s := by
  constructor
  · intro h
    exact ⟨List.mem_of_find?_eq_some h, by simpa using List.find?_some h⟩
  · rintro ⟨hr, rfl⟩
    exact route?_of_nodup hd hr

theorem signatures_nodup_of_analyze {a : Analyzer} {root : Interface}
    (h : a.analyze root = .ok table) : (table.routes.map Route.signature).Nodup := by
  obtain ⟨-, found, -, declared, ht, rfl⟩ := Analyzer.analyze_eq_ok.1 h
  exact ht.signatures_eq ▸ ht.distinct

theorem find_in_any_order {a : Analyzer} {root : Interface} (h : a.analyze root = .ok table)
    (ht : t.routes.Perm table.routes) :
    (∀ name arity, t.find name arity = table.find name arity ∧ (t.find name arity).Nodup ∧
      ((t.find name arity).map fun r => r.signature.paramTypes).Pairwise (· < ·) ∧
      ∀ r, r ∈ t.find name arity ↔
        r ∈ table.routes ∧ r.signature.name = name ∧ r.signature.arity = arity) ∧
      (∀ r ∈ table.routes, ∃! key : String × Nat, r ∈ t.find key.1 key.2) ∧
      ∀ s r, t.route? s = some r ↔
        r ∈ t.find s.name s.arity ∧ r.signature.paramTypes = s.paramTypes := by
  have hd := signatures_nodup_of_analyze h
  have hd' : (t.routes.map Route.signature).Nodup := (ht.map _).nodup_iff.2 hd
  refine ⟨fun name arity => ?_, fun r hr => ?_, fun s r => ?_⟩
  · have hstrict := find_strict hd' name arity
    have hnodup : ((t.find name arity).map fun r => r.signature.paramTypes).Nodup :=
      hstrict.imp fun hlt => ne_of_lt hlt
    refine ⟨find_of_perm hd ht name arity, hnodup.of_map _, hstrict, fun r => ?_⟩
    rw [mem_find, ht.mem_iff]
  · have hmem := ht.mem_iff.2 hr
    exact ⟨_, (mem_find_iff_key hmem).2 rfl, fun key hkey => (mem_find_iff_key hmem).1 hkey⟩
  · rw [route?_eq_some_iff hd', mem_find]
    constructor
    · rintro ⟨hr, rfl⟩
      exact ⟨⟨hr, rfl, rfl⟩, rfl⟩
    · rintro ⟨⟨hr, hname, -⟩, htypes⟩
      exact ⟨hr, congrArg₂ Signature.mk hname htypes⟩

def directory : Interface :=
  .mk "bank::Directory" true []
    [⟨"find", [⟨"key", "String", none⟩], [.balanced "random" ⟨none, false⟩]⟩,
      ⟨"find", [⟨"key", "Long", none⟩], [.balanced "random" ⟨none, false⟩]⟩,
      ⟨"find", [], [.balanced "random" ⟨none, false⟩]⟩]

def directoryRoute (types : List String) : Route :=
  ⟨⟨"find", types⟩, .balanced .random, .ofMillis 60000, false⟩

def directoryTable : RouteTable where
  interface := "bank::Directory"
  service := "Directory"
  routes := [directoryRoute ["String"], directoryRoute ["Long"], directoryRoute []]

theorem analyze_directory : Analyzer.builtin.analyze directory = .ok directoryTable := by
  with_unfolding_all rfl

theorem find_in_any_order_of_directory :
    let t := { directoryTable with routes := directoryTable.routes.reverse }
    t.find "find" 1 = [directoryRoute ["Long"], directoryRoute ["String"]] ∧
      t.route? ⟨"find", ["Long"]⟩ = some (directoryRoute ["Long"]) := by
  intro t
  have ht : t.routes.Perm directoryTable.routes := List.reverse_perm _
  obtain ⟨hfind, -, hroute⟩ := find_in_any_order analyze_directory ht
  obtain ⟨hsame, -, -, hmem⟩ := hfind "find" 1
  refine ⟨hsame.trans ?_, (hroute _ _).2 ⟨(hmem _).2 ⟨?_, rfl, rfl⟩, rfl⟩⟩
  · have hle : ((directoryRoute ["String"]).signature.le
        (directoryRoute ["Long"]).signature) = false := by decide
    change sort [directoryRoute ["String"], directoryRoute ["Long"]] = _
    simp [sort, List.mergeSort, hle]
  · simp [directoryTable]

end RouteTable

end Switchboard

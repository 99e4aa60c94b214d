import Mathlib.Data.List.Dedup
import Switchboard.Dispatch.Proxy
import Switchboard.Proofs.Keyed

namespace Switchboard.Provider

/-- A request for the proxy of an interface, with the number drawn for it: the id of the proxy if it
turns out to be a new one. -/
structure Request where
  id : Nat
  interface : Interface

def answer (p : Provider) (r : Request) : Except DeclarationError Proxy :=
  (p.getProxy r.id r.interface).1

def after (p : Provider) (r : Request) : Provider := (p.getProxy r.id r.interface).2

def afterAll (p : Provider) (rs : List Request) : Provider := rs.foldl after p

def granted (p : Provider) : List Request → List (Request × Proxy)
  | [] => []
  | r :: rs =>
      match p.answer r with
      | .ok x => (r, x) :: (p.after r).granted rs
      | .error _ => (p.after r).granted rs

variable {p q : Provider} {r : Request} {rs : List Request} {x : Proxy}

theorem afterAll_concat (p : Provider) (rs : List Request) (r : Request) :
    p.afterAll (rs ++ [r]) = (p.afterAll rs).after r := by
  simp [afterAll]

theorem granted_concat (p : Provider) (rs : List Request) (r : Request) :
    p.granted (rs ++ [r]) = p.granted rs ++ (p.afterAll rs).granted [r] := by
  induction rs generalizing p with
  | nil => rfl
  | cons first rs ih =>
      simp only [List.cons_append, granted]
      cases p.answer first with
      | ok x => exact congrArg _ (ih (p.after first))
      | error e => exact ih (p.after first)

theorem granted_single (p : Provider) (r : Request) :
    p.granted [r] = match p.answer r with
      | .ok x => [(r, x)]
      | .error _ => [] := rfl

def build (p : Provider) (r : Request) (t : RouteTable) : Proxy :=
  ⟨r.id, r.interface, t, p.config.slice, p.config.retry, p.hasher⟩

def keep (p : Provider) (x : Proxy) : Provider :=
  { p with proxies := Keyed.insert x.interface.name x p.proxies }

inductive Outcome (p : Provider) (r : Request) : Except DeclarationError Proxy → Provider → Prop
  | known {x : Proxy} : Keyed.find? r.interface.name p.proxies = some x →
      x.interface = r.interface → Outcome p r (.ok x) p
  | made {t : RouteTable} : Keyed.find? r.interface.name p.proxies = none →
      p.analyzer.analyze r.interface = .ok t →
      Outcome p r (.ok (p.build r t)) (p.keep (p.build r t))
  | invalid {e : DeclarationError} :
      (∀ x, Keyed.find? r.interface.name p.proxies = some x → x.interface ≠ r.interface) →
      p.analyzer.analyze r.interface = .error e → Outcome p r (.error e) p
  | conflict {x : Proxy} {t : RouteTable} :
      Keyed.find? r.interface.name p.proxies = some x → x.interface ≠ r.interface →
      p.analyzer.analyze r.interface = .ok t →
      Outcome p r (.error (.conflictingDeclaration r.interface.name)) p

theorem outcome (p : Provider) (r : Request) : Outcome p r (p.answer r) (p.after r) := by
  unfold answer after getProxy
  cases hx : Keyed.find? r.interface.name p.proxies with
  | some x =>
      by_cases hsame : x.interface = r.interface
      · simpa [hsame] using .known hx hsame
      · cases ha : p.analyzer.analyze r.interface with
        | error e =>
            have hother : ∀ y, Keyed.find? r.interface.name p.proxies = some y →
                y.interface ≠ r.interface := by
              intro y hy
              rw [hx] at hy
              exact Option.some.inj hy ▸ hsame
            simpa [hsame] using .invalid hother ha
        | ok t => simpa [hsame] using .conflict hx hsame ha
  | none =>
      cases ha : p.analyzer.analyze r.interface with
      | error e => exact .invalid (by simp [hx]) ha
      | ok t => exact .made hx ha

theorem find?_after {name : String} (h : Keyed.find? name p.proxies = some x) (r : Request) :
    Keyed.find? name (p.after r).proxies = some x := by
  have ho := outcome p r
  generalize p.answer r = answer at ho
  generalize p.after r = next at ho ⊢
  cases ho with
  | made hnone ha =>
      have hne : name ≠ r.interface.name := by
        intro hname
        rw [← hname, h] at hnone
        cases hnone
      exact (Keyed.find?_insert_of_ne hne _ _).trans h
  | _ => exact h

theorem find?_afterAll {name : String} (h : Keyed.find? name p.proxies = some x)
    (rs : List Request) : Keyed.find? name (p.afterAll rs).proxies = some x := by
  induction rs generalizing p with
  | nil => exact h
  | cons r rs ih => exact ih (find?_after h r)

structure Remembers (p : Provider) (rs : List Request) (q : Provider) : Prop where
  analyzer : q.analyzer = p.analyzer
  sorted : Keyed.Sorted q.proxies
  known : ∀ name x, Keyed.find? name q.proxies = some x →
    x.interface.name = name ∧ p.analyzer.analyze x.interface = .ok x.table ∧
      ∃ r, (r, x) ∈ p.granted rs
  granted : ∀ e ∈ p.granted rs, e.2.interface = e.1.interface ∧
    Keyed.find? e.1.interface.name q.proxies = some e.2
  issued : ∀ e ∈ q.proxies, e.2.id ∈ rs.map Request.id

theorem create_proxies {config : ClientConfig} {types : TypeRegistry} {policies : PolicyRegistry}
    {hasher : Hasher} (h : create config types policies hasher = .ok p) : p.proxies = [] := by
  unfold create at h
  split at h
  · cases h
  · cases h
    rfl

theorem remembers_nil (h : p.proxies = []) : Remembers p [] p where
  analyzer := rfl
  sorted := h ▸ Keyed.sorted_nil
  known name x hx := by simp [h, Keyed.find?] at hx
  granted e he := by simp [Provider.granted] at he
  issued e he := by simp [h] at he

theorem Remembers.refuse (h : Remembers p rs q) (hg : p.granted (rs ++ [r]) = p.granted rs) :
    Remembers p (rs ++ [r]) q where
  analyzer := h.analyzer
  sorted := h.sorted
  known := hg ▸ h.known
  granted := hg ▸ h.granted
  issued e he := by
    rw [List.map_append]
    exact List.mem_append_left _ (h.issued e he)

theorem Remembers.repeat (h : Remembers p rs q)
    (hg : p.granted (rs ++ [r]) = p.granted rs ++ [(r, x)])
    (hx : Keyed.find? r.interface.name q.proxies = some x) (hsame : x.interface = r.interface) :
    Remembers p (rs ++ [r]) q where
  analyzer := h.analyzer
  sorted := h.sorted
  known name y hy := by
    obtain ⟨hname, ha, r', hr'⟩ := h.known name y hy
    exact ⟨hname, ha, r', hg ▸ List.mem_append_left _ hr'⟩
  granted e he := by
    rw [hg] at he
    rcases List.mem_append.1 he with he | he
    · exact h.granted e he
    · obtain rfl := List.mem_singleton.1 he
      exact ⟨hsame, hx⟩
  issued e he := by
    rw [List.map_append]
    exact List.mem_append_left _ (h.issued e he)

theorem Remembers.make {t : RouteTable} (h : Remembers p rs q)
    (hg : p.granted (rs ++ [r]) = p.granted rs ++ [(r, q.build r t)])
    (hnone : Keyed.find? r.interface.name q.proxies = none)
    (ha : q.analyzer.analyze r.interface = .ok t) :
    Remembers p (rs ++ [r]) (q.keep (q.build r t)) where
  analyzer := h.analyzer
  sorted := Keyed.sorted_insert h.sorted
  known name y hy := by
    by_cases hn : name = r.interface.name
    · subst hn
      have hself := Keyed.find?_insert_self r.interface.name (q.build r t) q.proxies
      obtain rfl := Option.some.inj (hy.symm.trans hself)
      exact ⟨rfl, h.analyzer ▸ ha, r, hg ▸ by simp⟩
    · have hold : Keyed.find? name q.proxies = some y :=
        (Keyed.find?_insert_of_ne hn _ _).symm.trans hy
      obtain ⟨hname, hay, r', hr'⟩ := h.known name y hold
      exact ⟨hname, hay, r', hg ▸ List.mem_append_left _ hr'⟩
  granted e he := by
    rw [hg] at he
    rcases List.mem_append.1 he with he | he
    · obtain ⟨hsame, hfind⟩ := h.granted e he
      have hn : e.1.interface.name ≠ r.interface.name := by
        intro hn
        rw [hn, hnone] at hfind
        cases hfind
      exact ⟨hsame, (Keyed.find?_insert_of_ne hn _ _).trans hfind⟩
    · obtain rfl := List.mem_singleton.1 he
      exact ⟨rfl, Keyed.find?_insert_self ..⟩
  issued e he := by
    rw [List.map_append]
    rcases Keyed.mem_insert he with rfl | he
    · exact List.mem_append_right _ List.mem_cons_self
    · exact List.mem_append_left _ (h.issued e he)

theorem Remembers.after (h : Remembers p rs (p.afterAll rs)) (r : Request) :
    Remembers p (rs ++ [r]) (p.afterAll (rs ++ [r])) := by
  have hg := granted_concat p rs r
  rw [granted_single] at hg
  rw [afterAll_concat]
  have ho := outcome (p.afterAll rs) r
  generalize (p.afterAll rs).answer r = answer at hg ho
  generalize (p.afterAll rs).after r = next at ho
  generalize p.afterAll rs = q at h ho
  cases ho with
  | known hx hsame => exact h.repeat hg hx hsame
  | made hnone ha => exact h.make hg hnone ha
  | invalid => exact h.refuse (by simpa using hg)
  | conflict => exact h.refuse (by simpa using hg)

theorem remembers_afterAll (hp : p.proxies = []) (rs : List Request) :
    Remembers p rs (p.afterAll rs) := by
  induction rs using List.reverseRecOn with
  | nil => exact remembers_nil hp
  | append_singleton rs r ih => exact ih.after r

theorem ids_nodup (hp : p.proxies = []) (hd : (rs.map Request.id).Nodup) :
    ((p.afterAll rs).proxies.map (·.2.id)).Nodup := by
  induction rs using List.reverseRecOn with
  | nil => simp [afterAll, hp]
  | append_singleton rs r ih =>
      rw [List.map_append, List.nodup_append] at hd
      have hremembers := remembers_afterAll hp rs
      have hold := ih hd.1
      have ho := outcome (p.afterAll rs) r
      rw [afterAll_concat]
      generalize (p.afterAll rs).answer r = answer at ho
      generalize (p.afterAll rs).after r = next at ho
      generalize p.afterAll rs = q at hremembers hold ho
      -- Only a new proxy has the id of the last request, which no earlier one came with.
      cases ho with
      | @made t hnone ha =>
          have hperm := (Keyed.insert_perm (q.build r t) hnone).map (·.2.id)
          refine hperm.nodup_iff.2 (List.nodup_cons.2 ⟨fun hmem => ?_, hold⟩)
          obtain ⟨e, he, hid⟩ := List.mem_map.1 hmem
          exact hd.2.2 e.2.id (hremembers.issued e he) r.id (by simp) hid
      | _ => exact hold

structure Memoized (p : Provider) (rs : List Request) : Prop where
  succeeds : ∀ r, (∃ x, (p.afterAll rs).answer r = .ok x) ↔
    (∃ t, p.analyzer.analyze r.interface = .ok t) ∧
      ∀ e ∈ p.granted rs, e.1.interface.name = r.interface.name → e.1.interface = r.interface
  serves : ∀ r x, (p.afterAll rs).answer r = .ok x →
    x.interface = r.interface ∧ p.analyzer.analyze r.interface = .ok x.table
  shares : ∀ e ∈ p.granted rs, ∀ f ∈ p.granted rs,
    e.1.interface.name = f.1.interface.name → e.2 = f.2
  invalid : ∀ r e, p.analyzer.analyze r.interface = .error e →
    (p.afterAll rs).answer r = .error e
  conflicting : ∀ r t, p.analyzer.analyze r.interface = .ok t →
    (∃ e ∈ p.granted rs, e.1.interface.name = r.interface.name ∧ e.1.interface ≠ r.interface) →
    (p.afterAll rs).answer r = .error (.conflictingDeclaration r.interface.name)
  refuses : ∀ r e, (p.afterAll rs).answer r = .error e → p.afterAll (rs ++ [r]) = p.afterAll rs
  cached : (p.afterAll rs).cached = ((p.granted rs).map (·.1.interface.name)).dedup.length
  ids : (rs.map Request.id).Nodup → ((p.afterAll rs).proxies.map (·.2.id)).Nodup

namespace Remembers

variable {e : DeclarationError} {t : RouteTable}

theorem granted_known (h : Remembers p rs q) (hx : Keyed.find? r.interface.name q.proxies = some x)
    {g : Request × Proxy} (hg : g ∈ p.granted rs) (hn : g.1.interface.name = r.interface.name) :
    g.1.interface = x.interface := by
  obtain ⟨hsame, hfind⟩ := h.granted g hg
  rw [hn, hx] at hfind
  rw [← hsame, Option.some.inj hfind]

theorem none_granted (h : Remembers p rs q) (hnone : Keyed.find? r.interface.name q.proxies = none)
    {g : Request × Proxy} (hg : g ∈ p.granted rs) : g.1.interface.name ≠ r.interface.name := by
  intro hn
  have hfind := (h.granted g hg).2
  rw [hn, hnone] at hfind
  cases hfind

theorem of_ok (h : Remembers p rs q) (ha : q.answer r = .ok x) :
    x.interface = r.interface ∧ p.analyzer.analyze r.interface = .ok x.table ∧
      ∀ g ∈ p.granted rs, g.1.interface.name = r.interface.name → g.1.interface = r.interface := by
  have ho := outcome q r
  rw [ha] at ho
  generalize q.after r = next at ho
  cases ho with
  | known hx hsame =>
      refine ⟨hsame, ?_, ?_⟩
      · rw [← hsame]
        exact (h.known _ _ hx).2.1
      · intro g hg hn
        exact (h.granted_known hx hg hn).trans hsame
  | made hnone hok =>
      refine ⟨rfl, h.analyzer ▸ hok, ?_⟩
      intro g hg hn
      exact absurd hn (h.none_granted hnone hg)

theorem of_error (h : Remembers p rs q) (ha : q.answer r = .error e) :
    q.after r = q ∧ (p.analyzer.analyze r.interface = .error e ∨
      (e = .conflictingDeclaration r.interface.name ∧
        (∃ t, p.analyzer.analyze r.interface = .ok t) ∧ ∃ g ∈ p.granted rs,
          g.1.interface.name = r.interface.name ∧ g.1.interface ≠ r.interface)) := by
  have ho := outcome q r
  rw [ha] at ho
  generalize q.after r = next at ho ⊢
  cases ho with
  | invalid _ herr => exact ⟨rfl, .inl (h.analyzer ▸ herr)⟩
  | conflict hx hother hok =>
      obtain ⟨hname, -, g, hg⟩ := h.known _ _ hx
      have hsame := (h.granted _ hg).1
      exact ⟨rfl, .inr ⟨rfl, ⟨_, h.analyzer ▸ hok⟩, _, hg, hsame ▸ hname, hsame ▸ hother⟩⟩

theorem succeeds_iff (h : Remembers p rs q) (r : Request) : (∃ x, q.answer r = .ok x) ↔
    (∃ t, p.analyzer.analyze r.interface = .ok t) ∧
      ∀ g ∈ p.granted rs, g.1.interface.name = r.interface.name → g.1.interface = r.interface := by
  constructor
  · rintro ⟨x, hx⟩
    obtain ⟨-, hok, hgranted⟩ := h.of_ok hx
    exact ⟨⟨_, hok⟩, hgranted⟩
  · rintro ⟨⟨t, hok⟩, hgranted⟩
    cases ha : q.answer r with
    | ok x => exact ⟨x, rfl⟩
    | error e =>
        rcases (h.of_error ha).2 with herr | ⟨-, -, g, hg, hn, hother⟩
        · rw [hok] at herr
          cases herr
        · exact absurd (hgranted g hg hn) hother

theorem invalid (h : Remembers p rs q) (herr : p.analyzer.analyze r.interface = .error e) :
    q.answer r = .error e := by
  cases ha : q.answer r with
  | ok x =>
      have hok := (h.of_ok ha).2.1
      rw [herr] at hok
      cases hok
  | error d =>
      rcases (h.of_error ha).2 with hd | ⟨-, ⟨t, hok⟩, -⟩
      · rw [herr] at hd
        exact congrArg _ (Except.error.inj hd).symm
      · rw [herr] at hok
        cases hok

theorem conflicting (h : Remembers p rs q) (hok : p.analyzer.analyze r.interface = .ok t)
    {g : Request × Proxy} (hg : g ∈ p.granted rs) (hn : g.1.interface.name = r.interface.name)
    (hother : g.1.interface ≠ r.interface) :
    q.answer r = .error (.conflictingDeclaration r.interface.name) := by
  cases ha : q.answer r with
  | ok x => exact absurd ((h.of_ok ha).2.2 g hg hn) hother
  | error d =>
      rcases (h.of_error ha).2 with hd | ⟨rfl, -⟩
      · rw [hok] at hd
        cases hd
      · rfl

theorem names_iff (h : Remembers p rs q) (name : String) :
    name ∈ q.proxies.map (·.1) ↔ name ∈ (p.granted rs).map (·.1.interface.name) := by
  simp only [List.mem_map]
  constructor
  · rintro ⟨⟨_, x⟩, he, rfl⟩
    obtain ⟨hname, -, g, hg⟩ := h.known _ x (Keyed.find?_of_mem h.sorted he)
    exact ⟨_, hg, (h.granted _ hg).1 ▸ hname⟩
  · rintro ⟨g, hg, rfl⟩
    exact ⟨_, Keyed.mem_of_find? (h.granted g hg).2, rfl⟩

theorem cached_eq (h : Remembers p rs q) :
    q.cached = ((p.granted rs).map (·.1.interface.name)).dedup.length := by
  have hnodup : (q.proxies.map (·.1)).Nodup :=
    List.pairwise_map.2 (h.sorted.imp fun hlt => hlt.ne)
  have hperm : (q.proxies.map (·.1)).Perm ((p.granted rs).map (·.1.interface.name)).dedup := by
    rw [List.perm_ext_iff_of_nodup hnodup (List.nodup_dedup _)]
    intro name
    rw [List.mem_dedup]
    exact h.names_iff name
  simpa [cached] using hperm.length_eq

end Remembers

theorem memoized_afterAll {config : ClientConfig} {types : TypeRegistry}
    {policies : PolicyRegistry} {hasher : Hasher}
    (h : create config types policies hasher = .ok p) (rs : List Request) : Memoized p rs := by
  have hp : p.proxies = [] := create_proxies h
  have hr := remembers_afterAll hp rs
  exact {
    succeeds := hr.succeeds_iff
    serves := fun r x hx => ⟨(hr.of_ok hx).1, (hr.of_ok hx).2.1⟩
    shares := by
      intro e he f hf hn
      have hfind := (hr.granted e he).2
      rw [hn, (hr.granted f hf).2] at hfind
      exact (Option.some.inj hfind).symm
    invalid := fun r e herr => hr.invalid herr
    conflicting := fun r t hok ⟨e, he, hn, hother⟩ => hr.conflicting hok he hn hother
    refuses := fun r e he => (afterAll_concat p rs r).trans (hr.of_error he).1
    cached := hr.cached_eq
    ids := ids_nodup hp }

def bank : Provider := ⟨.standard, {}, .builtin, .scatter, []⟩

def bankRequests : List Request :=
  [⟨1, .mk "bank::Bank" false [] []⟩,
    ⟨2, .mk "bank::Bank" true [] []⟩,
    ⟨3, .mk "bank::Bank" true [] [⟨"audit", [], [.balanced "random" ⟨none, false⟩]⟩]⟩,
    ⟨4, .mk "bank::Bank" true [] []⟩]

theorem memoized_after_bankRequests : create .standard {} .builtin .scatter = .ok bank ∧
    (bank.granted bankRequests).map (fun e => (e.1.id, e.2.id)) = [(2, 2), (4, 2)] ∧
      Memoized bank bankRequests := by
  have h : create .standard {} .builtin .scatter = .ok bank := rfl
  exact ⟨h, by with_unfolding_all rfl, memoized_afterAll h bankRequests⟩

end Switchboard.Provider

import Switchboard.Proofs.Dispatch.Identity
import Switchboard.Proofs.Session.Course

namespace Switchboard

namespace Desk

structure Numbered (d : Desk) (made : List Proxy) : Prop where
  issued : ∀ x ∈ made, x.id ≤ d.issued
  distinct : ∀ x ∈ made, ∀ y ∈ made, x.id = y.id → x = y
  analyzed : ∀ x ∈ made, x.Analyzed
  kept : ∀ e ∈ d.providers, ∀ f ∈ e.2.proxies, f.2 ∈ made
  bound : ∀ e ∈ d.proxies, e.2 ∈ made

variable {d d' : Desk} {made xs : List Proxy} {x : Proxy} {p : Provider} {name : String}

namespace Numbered

theorem number (h : d.Numbered made) : d.number.Numbered made where
  issued y hy := Nat.le_succ_of_le (h.issued y hy)
  distinct := h.distinct
  analyzed := h.analyzed
  kept := h.kept
  bound := h.bound

theorem file (h : d.Numbered made) (hp : ∀ f ∈ p.proxies, f.2 ∈ made) :
    (d.file name p).Numbered made where
  issued := h.issued
  distinct := h.distinct
  analyzed := h.analyzed
  kept e he := by
    rcases Keyed.mem_insert he with rfl | he
    · exact hp
    · exact h.kept e he
  bound := h.bound

theorem bind (h : d.Numbered made) (hx : x ∈ made) : (d.bind name x).Numbered made where
  issued := h.issued
  distinct := h.distinct
  analyzed := h.analyzed
  kept := h.kept
  bound e he := by
    rcases Keyed.mem_insert he with rfl | he
    · exact hx
    · exact h.bound e he

theorem again (h : d.Numbered made) (hx : x ∈ made) : d.Numbered (made ++ [x]) := by
  have hsame (y : Proxy) : y ∈ made ++ [x] ↔ y ∈ made := by
    simp only [List.mem_append, List.mem_singleton]
    exact ⟨fun hy => hy.elim id fun heq => heq ▸ hx, .inl⟩
  constructor <;> simp only [hsame]
  exacts [h.issued, h.distinct, h.analyzed, h.kept, h.bound]

theorem make (h : d.Numbered made) (hid : x.id = d.issued + 1) (ha : x.Analyzed) :
    d.number.Numbered (made ++ [x]) where
  issued y hy := by
    rcases List.mem_append.1 hy with hy | hy
    · exact Nat.le_succ_of_le (h.issued y hy)
    · exact List.mem_singleton.1 hy ▸ hid.le
  distinct y hy z hz hyz := by
    have hnew : ∀ w ∈ made, w.id ≠ x.id := by
      intro w hw
      have hle := h.issued w hw
      omega
    rcases List.mem_append.1 hy with hy | hy <;> rcases List.mem_append.1 hz with hz | hz
    · exact h.distinct y hy z hz hyz
    · exact absurd (List.mem_singleton.1 hz ▸ hyz) (hnew y hy)
    · exact absurd (List.mem_singleton.1 hy ▸ hyz.symm) (hnew z hz)
    · exact (List.mem_singleton.1 hy).trans (List.mem_singleton.1 hz).symm
  analyzed y hy := by
    rcases List.mem_append.1 hy with hy | hy
    · exact h.analyzed y hy
    · exact List.mem_singleton.1 hy ▸ ha
  kept e he f hf := List.mem_append_left _ (h.kept e he f hf)
  bound e he := List.mem_append_left _ (h.bound e he)

theorem move (h : d.Numbered made) (hm : d.Move xs d') : d'.Numbered (made ++ xs) := by
  cases hm with
  | number => simpa using h.number
  | create hnew => simpa using h.file (by simp [Provider.create_proxies hnew])
  | @refuse name p r e hp hid hr =>
      have hkept := h.kept _ (Keyed.mem_of_find? hp)
      have ho := p.outcome r
      rw [hr] at ho
      generalize p.after r = next at ho ⊢
      rw [List.append_nil]
      cases ho with
      | invalid => exact h.number.file hkept
      | conflict => exact h.number.file hkept
  | @hand name binding p r x hp hid hr =>
      have hkept := h.kept _ (Keyed.mem_of_find? hp)
      have ho := p.outcome r
      rw [hr] at ho
      generalize p.after r = next at ho ⊢
      cases ho with
      | known hx =>
          have hmem : x ∈ made := hkept _ (Keyed.mem_of_find? hx)
          exact ((h.number.file hkept).bind hmem).again hmem
      | @made t hnone ha =>
          have hlast : p.build r t ∈ made ++ [p.build r t] := by simp
          refine ((h.make hid ⟨p.analyzer, ha⟩).file fun f hf => ?_).bind hlast
          rcases Keyed.mem_insert hf with rfl | hf
          · exact hlast
          · exact List.mem_append_left _ (hkept f hf)

theorem course (h : d.Numbered made) (hc : d.Course xs d') : d'.Numbered (made ++ xs) := by
  induction hc with
  | refl => simpa using h
  | move _ hm ih =>
      rw [← List.append_assoc]
      exact ih.move hm

end Numbered

end Desk

namespace Session

variable {s : Session} {substrate : Substrate} {types : TypeRegistry} {policies : PolicyRegistry}
  {site : CallSite} {hasher : Hasher} {made : List Proxy} {p q : Proxy} {name other : String}

theorem numbered_run (substrate : Substrate) (types : TypeRegistry) (policies : PolicyRegistry)
    (site : CallSite) (hasher : Hasher) (steps : List Step) :
    let s := start substrate types policies site hasher
    ∃ made, (s.runSteps steps).2.desk.Numbered made ∧
      ∀ a ∈ s.run steps, ∀ p, a.Hands p → p ∈ made := by
  intro s
  have hstart : s.desk.Numbered [] := by
    constructor <;> simp [s, desk, start]
  obtain ⟨made, hcourse, hshown⟩ := comes_runSteps s steps
  exact ⟨made, hstart.course hcourse, hshown⟩

def Shows (s : Session) (steps : List Step) (p : Proxy) : Prop := ∃ a ∈ s.run steps, a.Hands p

structure ToldApart (s : Session) (steps : List Step) : Prop where
  made : let t := (s.runSteps steps).2
    ∀ provider i binding known n x cached, Keyed.find? provider t.providers = some known →
      Keyed.find? i.name known.proxies = none →
      (t.getProxy provider i binding).1 = .proxy (.ok (n, x)) cached →
      ∀ q, s.Shows steps q → x.display ≠ q.display
  shown : ∀ p q, s.Shows steps p → s.Shows steps q → p ≠ q → p.display ≠ q.display ∧
    (¬p.interface.Declares "equals" 1 → p.lookup "equals" [.str q.display] = .answer (.bool false))
  named : let t := (s.runSteps steps).2
    ∀ name other p q, t.proxy? name = some p → t.proxy? other = some q →
      ¬p.interface.Declares "equals" 1 → ∃ b : Bool, (b = true ↔ p = q) ∧
        t.begin ⟨.byName name "equals", [.textOf other]⟩ = t.answered p (.ok (.bool b))

theorem id_of_made {known : Provider} {provider binding : String} {i : Interface} {x : Proxy}
    {n cached : Nat} (hp : Keyed.find? provider s.providers = some known)
    (hnone : Keyed.find? i.name known.proxies = none)
    (h : (s.getProxy provider i binding).1 = .proxy (.ok (n, x)) cached) : x.id = s.issued + 1 := by
  let r : Provider.Request := ⟨s.issued + 1, i⟩
  have ho := known.outcome r
  cases hr : known.answer r with
  | error e =>
      obtain ⟨_, _, heq, -⟩ := getProxy_refused binding hp hr
      rw [heq] at h
      cases h
  | ok y =>
      obtain ⟨_, _, _, heq, -⟩ := getProxy_handed binding hp hr
      rw [heq] at h
      cases h
      rw [hr] at ho
      generalize known.after r = next at ho
      cases ho with
      | known hx => cases hnone.symm.trans hx
      | made => rfl

theorem begin_equals (hp : s.proxy? name = some p) (hq : s.proxy? other = some q)
    (ha : p.Analyzed) (hd : ¬p.interface.Declares "equals" 1) :
    ∃ b : Bool, (b = true ↔ p.display = q.display) ∧
      s.begin ⟨.byName name "equals", [.textOf other]⟩ = s.answered p (.ok (.bool b)) := by
  obtain ⟨b, hlookup, hb⟩ := ha.equals hd (.str q.display)
  have hargument : s.argument (.textOf other) = .str q.display := by simp [argument, hq]
  refine ⟨b, by rw [hb, Json.str.injEq, eq_comm], ?_⟩
  rw [begin_byName hp, List.map_singleton, hargument, hlookup]
  rfl

theorem toldApart (substrate : Substrate) (types : TypeRegistry) (policies : PolicyRegistry)
    (site : CallSite) (hasher : Hasher) (steps : List Step) :
    (start substrate types policies site hasher).ToldApart steps := by
  obtain ⟨made, hnumbered, hshown⟩ := numbered_run substrate types policies site hasher steps
  have hsame (p q : Proxy) (hp : p ∈ made) (hq : q ∈ made) : p.display = q.display ↔ p = q :=
    ⟨fun h => hnumbered.distinct p hp q hq (Proxy.id_eq_of_display h), fun h => h ▸ rfl⟩
  refine ⟨?_, ?_, ?_⟩
  · rintro t provider i binding known n x cached hp hnone hx q ⟨a, ha, haq⟩ heq
    have hid : x.id = t.issued + 1 := id_of_made hp hnone hx
    have hle : q.id ≤ t.issued := hnumbered.issued q (hshown a ha q haq)
    have hsameId := Proxy.id_eq_of_display heq
    omega
  · rintro p q ⟨a, ha, hap⟩ ⟨b, hb, hbq⟩ hne
    have hp := hshown a ha p hap
    have hdisplay : p.display ≠ q.display := fun h => hne ((hsame p q hp (hshown b hb q hbq)).1 h)
    refine ⟨hdisplay, fun hd => ?_⟩
    obtain ⟨b, hlookup, hb⟩ := (hnumbered.analyzed p hp).equals hd (.str q.display)
    have hno : b = false := by
      rw [← Bool.not_eq_true, hb, Json.str.injEq]
      exact fun h => hdisplay h.symm
    rw [hlookup, hno]
  · intro t name other p q hp hq hd
    have hpm := hnumbered.bound _ (Keyed.mem_of_find? hp)
    have hqm := hnumbered.bound _ (Keyed.mem_of_find? hq)
    obtain ⟨b, hb, hbegin⟩ := begin_equals hp hq (hnumbered.analyzed p hpm) hd
    exact ⟨b, hb.trans (hsame p q hpm hqm), hbegin⟩

/-- Whatever the names in it are, the text of a proxy is its own: it takes no other one for its own
text, and none that the steps of a session have made has the same. -/
theorem texts_tell_proxies_apart :
    (∀ p q : Proxy, p.id ≠ q.id → p.display ≠ q.display) ∧
      (∀ p : Proxy, p.Analyzed →
        (¬p.interface.Declares "to_string" 0 → p.lookup "to_string" [] = .answer (.str p.display)) ∧
        (¬p.interface.Declares "equals" 1 → ∀ v, ∃ b,
          p.lookup "equals" [v] = .answer (.bool b) ∧ (b = true ↔ v = .str p.display))) ∧
      ∀ substrate types policies site hasher steps,
        (start substrate types policies site hasher).ToldApart steps := by
  refine ⟨fun p q hne h => hne (Proxy.id_eq_of_display h), fun p ha => ⟨ha.to_string, ha.equals⟩,
    toldApart⟩

def bare : Interface := .mk "bank::Bank" true [] []

def bareProxy (id : Nat) (slice : String) : Proxy :=
  ⟨id, bare, ⟨"bank::Bank", "Bank", []⟩, slice, .standard, .scatter⟩

def plainSteps : List Step :=
  [.provider "plain" { ClientConfig.standard with slice := "eu" } none,
    .provider "crafted" { ClientConfig.standard with slice := "eu#1]" } none,
    .getProxy "plain" bare "bank"]

def impostorSteps : List Step := plainSteps ++ [.getProxy "crafted" bare "impostor"]

def fair : Session := start (.scripted (.ofList [⟨"a", "x", false⟩]) []) {} .builtin ⟨"f", 1⟩

theorem run_plainSteps : fair.run plainSteps =
    [.provider (.ok "eu"), .provider (.ok "eu#1]"), .proxy (.ok (1, bareProxy 1 "eu")) 1] := by
  with_unfolding_all rfl

def crafted : Provider :=
  ⟨{ ClientConfig.standard with slice := "eu#1]" }, {}, .builtin, .scatter, []⟩

theorem crafted_makes :
    let t := (fair.runSteps plainSteps).2
    Keyed.find? "crafted" t.providers = some crafted ∧
      (t.getProxy "crafted" bare "impostor").1 = .proxy (.ok (2, bareProxy 2 "eu#1]")) 1 := by
  constructor <;> with_unfolding_all rfl

theorem run_concat (s : Session) (steps : List Step) (step : Step) :
    s.run (steps ++ [step]) = s.run steps ++ [((s.runSteps steps).2.runStep step).1] := by
  induction steps generalizing s with
  | nil => simp only [run, runSteps, List.nil_append]
  | cons first steps ih =>
      have hrest := ih (s.runStep first).2
      simp only [run, List.cons_append, runSteps] at hrest ⊢
      rw [hrest]

theorem run_impostorSteps : fair.run impostorSteps =
    [.provider (.ok "eu"), .provider (.ok "eu#1]"), .proxy (.ok (1, bareProxy 1 "eu")) 1,
      .proxy (.ok (2, bareProxy 2 "eu#1]")) 1] := by
  rw [impostorSteps, run_concat, run_plainSteps, runStep, crafted_makes.2]
  rfl

theorem analyze_bare : Analyzer.builtin.analyze bare = .ok ⟨"bank::Bank", "Bank", []⟩ := by
  with_unfolding_all rfl

theorem bare_declares_nothing (name : String) (arity : Nat) : ¬bare.Declares name arity := by
  rintro ⟨i, m, hreach, hm, -⟩
  rcases hreach.cases_head with rfl | ⟨j, hj, -⟩
  · simp [bare, Interface.methods] at hm
  · simp [bare, Interface.parents] at hj

theorem texts_tell_proxies_apart_of_impostor :
    let p := bareProxy 1 "eu"
    let q := bareProxy 2 "eu#1]"
    p.display = "ServiceProxy[bank::Bank@eu#1]" ∧
      q.display = "ServiceProxy[bank::Bank@eu#1]#2]" ∧ q.display ≠ p.display ∧
      p.lookup "equals" [.str q.display] = .answer (.bool false) ∧
      p.lookup "to_string" [] = .answer (.str p.display) := by
  intro p q
  have htext : (bareProxy 1 "eu").display = "ServiceProxy[bank::Bank@eu#1]" := by decide
  have htext' : (bareProxy 2 "eu#1]").display = "ServiceProxy[bank::Bank@eu#1]#2]" := by decide
  obtain ⟨htexts, hown, hsession⟩ := texts_tell_proxies_apart
  have hplain : fair.Shows plainSteps p := by
    refine ⟨.proxy (.ok (1, p)) 1, ?_, .proxy⟩
    rw [run_plainSteps]
    simp [p]
  have hp : fair.Shows impostorSteps p := by
    refine ⟨.proxy (.ok (1, p)) 1, ?_, .proxy⟩
    rw [run_impostorSteps]
    simp [p]
  have hq : fair.Shows impostorSteps q := by
    refine ⟨.proxy (.ok (2, q)) 1, ?_, .proxy⟩
    rw [run_impostorSteps]
    simp [q]
  have hne : q.display ≠ p.display := by
    obtain ⟨hcrafted, hmade⟩ := crafted_makes
    exact (hsession _ _ _ _ _ plainSteps).made _ _ _ _ _ _ _ hcrafted rfl hmade p hplain
  have hdiffer : p ≠ q := fun h => htexts p q (by decide) (congrArg Proxy.display h)
  have hanalyzed : p.Analyzed := ⟨Analyzer.builtin, analyze_bare⟩
  exact ⟨htext, htext', hne,
    ((hsession _ _ _ _ _ impostorSteps).shown p q hp hq hdiffer).2 (bare_declares_nothing _ _),
    (hown p hanalyzed).1 (bare_declares_nothing _ _)⟩

end Session

end Switchboard

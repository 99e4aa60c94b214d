import Switchboard.Proofs.Dispatch.Movement

namespace Switchboard.Traffic

def Awaits (t : Traffic) (place m : Nat) : Prop :=
  ∃ i n deadline, t.flights[place]? = some ⟨i, .waiting n (.ofTask m) deadline⟩

/-- No task that a call waits for is aborted by anyone but this call. -/
def Private (t : Traffic) (es : List Event) : Prop :=
  ∀ first m rest, es = first ++ .cluster (.abort m) :: rest →
    ∀ place, ¬(t.afterAll first).Awaits place m

structure Orderly (t : Traffic) (c : Cluster) : Prop where
  steady : Steady t c
  lasting : ∀ place m, t.Awaits place m → ∃ s, c.stage? m = some s ∧ s ≠ .aborted
  single : ∀ place other m, t.Awaits place m → t.Awaits other m → place = other

variable {t t' : Traffic} {c c' : Cluster} {e : Event} {es : List Event} {place m : Nat}
  {i : Invocation} {w : World} {ph ph' : Phase} {new : List Submission}

theorem awaits_of_move {n deadline : Nat}
    (h : Flight.Move i w c ph (.waiting n (.ofTask m) deadline) c' new) :
    c.stage? m = none ∧ c'.stage? m = some .queued := by
  generalize hph : Phase.waiting n (.ofTask m) deadline = ph' at h
  cases h with
  | @submit n call target hprep =>
      cases hr : (c.submit call target).1 with
      | settled r =>
          rw [hr] at hph
          cases hph
      | task k =>
          rw [hr] at hph
          cases hph
          obtain ⟨id, q, seat, -, -, hk, -⟩ := Cluster.submit_task hr
          refine ⟨?_, Cluster.queued_of_submit hr⟩
          rw [hk, Cluster.stage?, List.getElem?_eq_none (Nat.le_refl _), Option.map_none]
  | @conclude n' deadline' p r hr =>
      rcases Flight.conclude_cases i n' w.now r with hc | ⟨-, hc⟩ <;>
        · rw [hc] at hph
          cases hph
  | _ => cases hph

theorem aborts_of_move (h : Flight.Move i w c ph ph' c' new) (hp : ph.Plain)
    (hno : c.stage? m ≠ some .aborted) (ha : c'.stage? m = some .aborted) :
    (∃ n deadline, ph = .waiting n (.ofTask m) deadline) ∧ ∃ r tick, ph' = .settled r tick := by
  cases h with
  | submit hprep =>
      cases Cluster.aborted_after (e := .submit _ _) ha hno
  | @expire n deadline p c' hr hd hc =>
      rcases hc with rfl | ⟨k, hk, rfl⟩
      · exact absurd ha hno
      · cases Cluster.aborted_after (e := .abort k) ha hno
        refine ⟨⟨n, deadline, ?_⟩, _, _, rfl⟩
        cases hp with
        | failed x => cases hk
        | task k' =>
            cases hk
            rfl
  | _ => exact absurd ha hno

theorem Happens.awaits (he : Happens t c e t' c') (h : t'.Awaits place m) :
    t.Awaits place m ∨ e = .step place ∧ c.stage? m = none ∧ c'.stage? m = some .queued := by
  obtain ⟨i, n, deadline, hf⟩ := h
  rcases he.at_place place with ⟨hsame, -⟩ | ⟨j, -, -, -, hsome⟩ | ⟨f, ph, new, he, -, hf', hm, -⟩
  · exact Or.inl ⟨i, n, deadline, hsame ▸ hf⟩
  · rw [hsome] at hf
    unfold Flight.launch at hf
    split at hf <;> cases hf
  · rw [hf'] at hf
    cases hf
    exact Or.inr ⟨he, awaits_of_move hm⟩

theorem Orderly.unaborted (h : Orderly t c) (he : Happens t c e t' c')
    (hprivate : ∀ m, e = .cluster (.abort m) → ∀ place, ¬t.Awaits place m)
    (hold : t.Awaits place m) (hnew : t'.Awaits place m) : c'.stage? m ≠ some .aborted := by
  intro ha
  obtain ⟨s, hs, hlive⟩ := h.lasting place m hold
  have hno : c.stage? m ≠ some .aborted := by
    rw [hs]
    simpa using hlive
  cases he with
  | cluster e =>
      cases Cluster.aborted_after ha hno
      exact hprivate m rfl place hold
  | @move p f ph c' new w hf hm hw hnow hsub =>
      obtain ⟨⟨n, deadline, hwait⟩, r, tick, rfl⟩ :=
        aborts_of_move hm (h.steady.plain p f hf) hno ha
      have hp : t.Awaits p m := ⟨f.invocation, n, deadline, by rw [hf, ← hwait]⟩
      obtain rfl := h.single p place m hp hold
      obtain ⟨i, n', deadline', hf'⟩ := hnew
      rw [List.getElem?_set_self (List.getElem?_eq_some_iff.1 hf).1] at hf'
      cases hf'
  | _ => exact hno ha

theorem Orderly.next (h : Orderly t c) (he : Happens t c e t' c')
    (hprivate : ∀ m, e = .cluster (.abort m) → ∀ place, ¬t.Awaits place m) : Orderly t' c' := by
  have hknown {place m : Nat} (hm : t.Awaits place m) : c.stage? m ≠ none := by
    obtain ⟨s, hs, -⟩ := h.lasting place m hm
    simp [hs]
  refine ⟨h.steady.next he, fun place m hm => ?_, fun place other m hp ho => ?_⟩
  · rcases he.awaits hm with hold | ⟨-, -, hq⟩
    · obtain ⟨s, hs, -⟩ := h.lasting place m hold
      obtain ⟨seen, hp⟩ := h.steady.progress he m
      have hlive := h.unaborted he hprivate hold hm
      rw [hs] at hp
      generalize c'.stage? m = s' at hp hlive
      cases s' with
      | none => cases hp
      | some s' => exact ⟨s', rfl, by simpa using hlive⟩
    · exact ⟨.queued, hq, by simp⟩
  · rcases he.awaits hp with hp | ⟨hplace, hfresh, -⟩
    · rcases he.awaits ho with ho | ⟨-, hfresh, -⟩
      · exact h.single place other m hp ho
      · exact absurd hfresh (hknown hp)
    · rcases he.awaits ho with ho | ⟨hother, -, -⟩
      · exact absurd hfresh (hknown ho)
      · rw [hplace] at hother
        cases hother
        rfl

theorem Private.cons (h : t.Private (e :: es)) :
    (∀ m, e = .cluster (.abort m) → ∀ place, ¬t.Awaits place m) ∧ (t.after e).Private es := by
  refine ⟨fun m hm => h [] m es (congrArg (· :: es) hm), ?_⟩
  rintro first m rest rfl
  exact h (e :: first) m rest rfl

theorem Private.append {es' : List Event} (h : t.Private (es ++ es')) :
    t.Private es ∧ (t.afterAll es).Private es' := by
  refine ⟨?_, ?_⟩
  · rintro first m rest rfl
    exact h first m (rest ++ es') (by simp)
  · rintro first m rest rfl
    have hlast := h (es ++ first) m rest (by simp)
    rwa [afterAll_append] at hlast

theorem Orderly.afterAll (h : Orderly t c) (hprivate : t.Private es) :
    ∃ c', Orderly (t.afterAll es) c' := by
  induction es generalizing t c with
  | nil => exact ⟨c, h⟩
  | cons e es ih =>
      obtain ⟨hfirst, hrest⟩ := hprivate.cons
      obtain ⟨c', he⟩ := h.steady.happens e
      exact ih (h.next he hfirst) hrest

theorem orderly_begin (h : c.Sound) : Orderly (.begin c) c := by
  have hnone {place m : Nat} : ¬(Traffic.begin c).Awaits place m := by
    rintro ⟨i, n, deadline, hf⟩
    simp [begin] at hf
  exact ⟨steady_begin h, fun _ _ hm => absurd hm hnone, fun _ _ _ hm => absurd hm hnone⟩

variable {log : List Signal}

structure Numbered (c : Cluster) (log : List Signal) : Prop where
  known : ∀ place m, m ∈ sentBy place log → c.stage? m ≠ none
  single : ∀ place other m, m ∈ sentBy place log → m ∈ sentBy other log → place = other

theorem Steady.sent (h : Steady t c) (he : Happens t c e (t.after e) c')
    (hm : m ∈ sentBy place (t.signals e)) :
    e = .step place ∧ c.stage? m = none ∧ c'.stage? m = some .queued := by
  cases e with
  | cluster e =>
      rw [signals_cluster h.cluster, Cluster.sentBy_signals] at hm
      cases hm
  | pass ticks => cases hm
  | launch i => cases hm
  | step p =>
      cases hf : t.flights[p]? with
      | none =>
          simp only [signals, hf] at hm
          cases hm
      | some f =>
          have hlt := (List.getElem?_eq_some_iff.1 hf).1
          have hget : (t.after (.step p)).flights[p]? = some (f.drive 1 t.world).1 := by
            rw [after_step hf]
            exact List.getElem?_set_self hlt
          rw [signals_step hf, sentBy_sent] at hm
          split at hm
          · next hp =>
              subst hp
              have hhanded : Flight.handed? f.phase (f.drive 1 t.world).1.phase = some m := by
                simpa using hm
              refine ⟨rfl, ?_⟩
              rcases he.at_place p with ⟨hsame, -⟩ | ⟨j, hj, -⟩ | ⟨g, ph, new, -, hg, hg', hmove, -⟩
              · rw [hget, hf] at hsame
                rw [Option.some.inj hsame, Flight.handed?_self] at hhanded
                cases hhanded
              · cases hj
              · rw [hf] at hg
                cases hg
                rw [hget] at hg'
                rw [Option.some.inj hg'] at hhanded
                obtain ⟨n, k, hook, deadline, -, rfl⟩ := Flight.handed?_eq_some hhanded
                have hplain := hmove.plain
                cases hplain with
                | task m => exact awaits_of_move hmove
          · cases hm

theorem Numbered.after (h : Numbered c log) (hs : Steady t c) (he : Happens t c e (t.after e) c') :
    Numbered c' (log ++ t.signals e) := by
  have hnew {place m : Nat} (hm : m ∈ sentBy place (log ++ t.signals e)) :
      m ∈ sentBy place log ∨ m ∈ sentBy place (t.signals e) := by
    rwa [sentBy_append, List.mem_append] at hm
  refine ⟨fun place m hm => ?_, fun place other m hp ho => ?_⟩
  · rcases hnew hm with hold | hm
    · obtain ⟨seen, hp⟩ := hs.progress he m
      have hknown := h.known place m hold
      generalize c.stage? m = x at hp hknown
      generalize c'.stage? m = x' at hp ⊢
      cases hp with
      | still => exact hknown
      | _ => simp
    · simp [(hs.sent he hm).2.2]
  · rcases hnew hp with hp | hp <;> rcases hnew ho with ho | ho
    · exact h.single place other m hp ho
    · exact absurd (hs.sent he ho).2.1 (h.known place m hp)
    · exact absurd (hs.sent he hp).2.1 (h.known other m ho)
    · have hsame := (hs.sent he hp).1.symm.trans (hs.sent he ho).1
      cases hsame
      rfl

theorem Numbered.afterAll (h : Numbered c log) (hs : Steady t c) (es : List Event) :
    ∃ c', Steady (t.afterAll es) c' ∧ Numbered c' (log ++ t.log es) := by
  induction es generalizing t c log with
  | nil => exact ⟨c, hs, by simpa [Traffic.log] using h⟩
  | cons e es ih =>
      obtain ⟨c', he, hs'⟩ := hs.after e
      have hrest := ih (h.after hs he) hs'
      rwa [List.append_assoc] at hrest

theorem numbered_begin (c : Cluster) : Numbered c [] where
  known place m hm := by cases hm
  single place other m hm := by cases hm

end Switchboard.Traffic

import Switchboard.Proofs.Dispatch.Scenario
import Switchboard.Proofs.Dispatch.SingleCall

namespace Switchboard

def Cluster.Receipt.pending : Cluster.Receipt → Pending
  | .settled r => .settled r
  | .task n => .ofTask n

inductive Pending.Plain : Pending → Prop
  | failed (e : CallFailure) : Plain (.settled (.error e))
  | task (n : Nat) : Plain (.ofTask n)

def Phase.Plain : Phase → Prop
  | .waiting _ p _ => p.Plain
  | _ => True

variable {c c' : Cluster} {w w' : World} {i : Invocation} {ph ph' : Phase} {new : List Submission}

theorem Cluster.plain_submit (c : Cluster) (call : Call) (target : Option Member) :
    (c.submit call target).1.pending.Plain := by
  cases hr : (c.submit call target).1 with
  | settled r =>
      obtain ⟨-, e, rfl⟩ := submit_settled hr
      exact .failed e
  | task n => exact .task n

theorem Cluster.queued_of_submit {call : Call} {target : Option Member} {m : Nat}
    (h : (c.submit call target).1 = .task m) :
    (c.submit call target).2.stage? m = some .queued := by
  obtain ⟨id, p, seat, -, -, rfl, hc⟩ := Cluster.submit_task h
  rw [hc, Cluster.stage?_append, if_pos rfl]

theorem World.result?_ofTask (hw : w.substrate = .cluster c) (n : Nat) :
    w.result? (.ofTask n) = c.taskResult? n := by
  simp [World.result?, Pending.ofTask, World.cluster?, hw]

theorem Phase.Plain.follow (h : ph.Plain) (now : Nat) : Flight.follow now ph = ph := by
  cases ph with
  | waiting n p deadline => cases h <;> rfl
  | _ => rfl

theorem World.place_cluster (c : Cluster) (call : Call) (target : Option Member) :
    World.place (.cluster c) call target =
      ((c.submit call target).1.pending, .cluster (c.submit call target).2) := by
  rw [World.place]
  split <;> simp_all [Cluster.Receipt.pending]

namespace Flight

inductive Move (i : Invocation) (w : World) (c : Cluster) :
    Phase → Phase → Cluster → List Submission → Prop
  | unprepared {n : Nat} {e : DispatchError} : (i.prepare w).1 = .error e →
      Move i w c (.preparing n) (.settled (.error e) w.now) c []
  | submit {n : Nat} {call : Call} {target : Option Member} :
      (i.prepare w).1 = .ok (call, target) →
      Move i w c (.preparing n)
        (.waiting n (c.submit call target).1.pending (w.now + i.route.timeout.ticks))
        (c.submit call target).2 [⟨call, target⟩]
  | conclude {n deadline : Nat} {p : Pending} {r : CallResult} : w.result? p = some r →
      Move i w c (.waiting n p deadline) (Flight.conclude i n w.now r) c []
  | expire {n deadline : Nat} {p : Pending} {c' : Cluster} : w.result? p = none →
      deadline ≤ w.now → (c' = c ∨ ∃ m, p.interrupt = some (.abort m) ∧ c' = c.abort m) →
      Move i w c (.waiting n p deadline)
        (.settled (.error (.timeout i.qualified i.route.timeout)) w.now) c' []
  | wake {n wake : Nat} : wake ≤ w.now →
      Move i w c (.resting n wake) (.preparing (n + 1)) c []

theorem move_of_interrupt {p : Pending} (hw : w.substrate = .cluster c) :
    ∃ c', (c' = c ∨ ∃ m, p.interrupt = some (.abort m) ∧ c' = c.abort m) ∧
      (w.interrupt p).2.substrate = .cluster c' ∧
      (w.interrupt p).2.submissions = w.submissions := by
  cases hp : p.interrupt with
  | none =>
      simp only [World.interrupt, hp]
      exact ⟨c, Or.inl rfl, hw, trivial⟩
  | some hook =>
      simp only [World.interrupt, hp]
      cases hook with
      | count => exact ⟨c, Or.inl rfl, hw, rfl⟩
      | abort m =>
          exact ⟨c.abort m, Or.inr ⟨m, rfl, rfl⟩,
            by simp [World.runHook, World.mapCluster, hw],
            by simp [World.runHook, World.mapCluster, hw]⟩

theorem move_of_step (hw : w.substrate = .cluster c) (h : step i w ph = some (ph', w')) :
    ∃ c' new, Move i w c ph ph' c' new ∧ w'.substrate = .cluster c' ∧
      w'.submissions = w.submissions ++ new := by
  obtain ⟨cursors, consulted, hp⟩ := prepare_frame i w
  cases goes_of_step h with
  | unprepared hprep =>
      rw [hp]
      exact ⟨c, [], .unprepared hprep, hw, (List.append_nil _).symm⟩
  | submit hprep =>
      rw [hp]
      simp only [World.submit, hw, World.place_cluster]
      exact ⟨_, _, .submit hprep, rfl, rfl⟩
  | conclude hr => exact ⟨c, [], .conclude hr, hw, (List.append_nil _).symm⟩
  | expire hr hd =>
      split
      · obtain ⟨c', hc, hsub, hnew⟩ := move_of_interrupt hw
        exact ⟨c', [], .expire hr hd hc, hsub, by rw [hnew, List.append_nil]⟩
      · exact ⟨c, [], .expire hr hd (Or.inl rfl), hw, (List.append_nil _).symm⟩
  | wake hwake => exact ⟨c, [], .wake hwake, hw, (List.append_nil _).symm⟩

theorem conclude_cases (i : Invocation) (n now : Nat) (r : CallResult) :
    Flight.conclude i n now r = .settled (i.verdict n r) now ∨
      (∃ e, r = .error e ∧ e.isStale = true) ∧
        Flight.conclude i n now r = .resting n (now + i.retry.backoff.ticks) := by
  cases r with
  | ok v => exact Or.inl rfl
  | error e =>
      cases e with
      | remote e => exact Or.inl rfl
      | _ =>
          simp only [Flight.conclude]
          split
          · exact Or.inr ⟨⟨_, rfl, rfl⟩, rfl⟩
          · exact Or.inl rfl

theorem Move.plain (h : Move i w c ph ph' c' new) : ph'.Plain := by
  cases h with
  | submit hp => exact c.plain_submit _ _
  | @conclude n deadline p r hr =>
      rcases conclude_cases i n w.now r with hc | ⟨-, hc⟩ <;> rw [hc] <;> exact trivial
  | _ => exact trivial

theorem Move.touches (h : Move i w c ph ph' c' new) :
    c' = c ∨ (∃ call target, c' = c.after (.submit call target)) ∨
      ∃ m, c' = c.after (.abort m) := by
  cases h with
  | submit hp => exact Or.inr (Or.inl ⟨_, _, rfl⟩)
  | expire hr hd hc =>
      rcases hc with rfl | ⟨m, -, rfl⟩
      · exact Or.inl rfl
      · exact Or.inr (Or.inr ⟨m, rfl⟩)
  | _ => exact Or.inl rfl

theorem Move.quiet (h : Move i w c ph ph' c' new) : Cluster.Quiet c c' := by
  rcases h.touches with rfl | ⟨call, target, rfl⟩ | ⟨m, rfl⟩
  · exact Or.inl rfl
  · exact Or.inr ⟨.submit call target, rfl, rfl⟩
  · exact Or.inr ⟨.abort m, rfl, rfl⟩

end Flight

namespace Traffic

structure Steady (t : Traffic) (c : Cluster) : Prop where
  cluster : t.world.substrate = .cluster c
  sound : c.Sound
  plain : ∀ (place : Nat) (f : Flight), t.flights[place]? = some f → f.phase.Plain

inductive Happens (t : Traffic) (c : Cluster) : Event → Traffic → Cluster → Prop
  | cluster (e : Cluster.Event) :
      Happens t c (.cluster e) { t with world := { t.world with substrate := .cluster (c.after e) } }
        (c.after e)
  | pass (ticks : Nat) : Happens t c (.pass ticks) (t.setNow (t.world.now + ticks)) c
  | launch (i : Invocation) :
      Happens t c (.launch i) { t with flights := t.flights ++ [Flight.launch i t.world.now] } c
  | idle (place : Nat) :
      (∀ f, t.flights[place]? = some f → Flight.step f.invocation t.world f.phase = none) →
      Happens t c (.step place) t c
  | move {place : Nat} {f : Flight} {ph : Phase} {c' : Cluster} {new : List Submission}
      {w : World} : t.flights[place]? = some f →
      Flight.Move f.invocation t.world c f.phase ph c' new → w.substrate = .cluster c' →
      w.now = t.world.now → w.submissions = t.world.submissions ++ new →
      Happens t c (.step place) ⟨w, t.flights.set place { f with phase := ph }⟩ c'

variable {t t' : Traffic} {e : Event} {place n m : Nat}

theorem set_getElem?_self {α : Type} {l : List α} {n : Nat} {a : α} (h : l[n]? = some a) :
    l.set n a = l := by
  obtain ⟨hn, rfl⟩ := List.getElem?_eq_some_iff.1 h
  exact List.set_getElem_self hn

theorem Steady.happens_step (h : Steady t c) (place : Nat) :
    ∃ c', Happens t c (.step place) (t.after (.step place)) c' := by
  cases hf : t.flights[place]? with
  | none =>
      have hafter : t.after (.step place) = t := by simp only [after, hf]
      rw [hafter]
      exact ⟨c, .idle place fun f hg => by simp [hf] at hg⟩
  | some f =>
      have hplain : Flight.follow t.world.now f.phase = f.phase := (h.plain place f hf).follow _
      rw [after_step hf]
      rcases Flight.drive_one t.world f with ⟨hnone, hone⟩ | ⟨ph, w', hstep, hone⟩
      · rw [hone, hplain, set_getElem?_self hf]
        refine ⟨c, .idle place fun g hg => ?_⟩
        rw [hf] at hg
        cases hg
        rwa [hplain] at hnone
      · rw [hplain] at hstep
        obtain ⟨c', new, hmove, hsub, hnew⟩ := Flight.move_of_step h.cluster hstep
        rw [hone, hmove.plain.follow]
        exact ⟨c', .move hf hmove hsub (Flight.now_step hstep) hnew⟩

theorem Steady.happens_cluster (h : Steady t c) (e : Cluster.Event) :
    Happens t c (.cluster e) (t.after (.cluster e)) (c.after e) := by
  have hafter : t.after (.cluster e) =
      { t with world := { t.world with substrate := .cluster (c.after e) } } := by
    simp [after, World.mapCluster, h.cluster]
  exact hafter ▸ .cluster e

theorem Steady.happens (h : Steady t c) (e : Event) : ∃ c', Happens t c e (t.after e) c' := by
  cases e with
  | cluster e => exact ⟨c.after e, h.happens_cluster e⟩
  | pass ticks => exact ⟨c, .pass ticks⟩
  | launch i => exact ⟨c, .launch i⟩
  | step place => exact h.happens_step place

theorem plain_launch (i : Invocation) (now : Nat) : (Flight.launch i now).phase.Plain := by
  unfold Flight.launch
  split <;> exact trivial

theorem Steady.next (h : Steady t c) (he : Happens t c e t' c') : Steady t' c' := by
  cases he with
  | cluster e => exact ⟨rfl, h.sound.after e, h.plain⟩
  | pass ticks => exact ⟨h.cluster, h.sound, h.plain⟩
  | launch i =>
      refine ⟨h.cluster, h.sound, fun place f hf => ?_⟩
      rcases Cluster.getElem?_concat_eq_some hf with hf | ⟨-, rfl⟩
      · exact h.plain place f hf
      · exact plain_launch i t.world.now
  | idle place _ => exact h
  | @move place f ph c' new w hf hm hw hnow hnew =>
      refine ⟨hw, hm.quiet.sound h.sound, fun other g hg => ?_⟩
      by_cases hne : place = other
      · subst hne
        rw [List.getElem?_set_self (List.getElem?_eq_some_iff.1 hf).1] at hg
        cases hg
        exact hm.plain
      · rw [List.getElem?_set_ne hne] at hg
        exact h.plain other g hg

theorem Steady.after (h : Steady t c) (e : Event) :
    ∃ c', Happens t c e (t.after e) c' ∧ Steady (t.after e) c' := by
  obtain ⟨c', he⟩ := h.happens e
  exact ⟨c', he, h.next he⟩

theorem Happens.reaches (h : Happens t c e t' c') :
    c' = c ∨ (∃ e', e = .cluster e' ∧ c' = c.after e') ∨
      (∃ call target, c' = c.after (.submit call target)) ∨ ∃ m, c' = c.after (.abort m) := by
  cases h with
  | cluster e => exact Or.inr (Or.inl ⟨e, rfl, rfl⟩)
  | move hf hm hw hnow hnew =>
      rcases hm.touches with hc | hc | hc
      · exact Or.inl hc
      · exact Or.inr (Or.inr (Or.inl hc))
      · exact Or.inr (Or.inr (Or.inr hc))
  | _ => exact Or.inl rfl

theorem Steady.progress (h : Steady t c) (he : Happens t c e t' c') (n : Nat) :
    ∃ seen, Cluster.Progress n seen (c.stage? n) (c'.stage? n) := by
  rcases he.reaches with rfl | ⟨e', rfl, rfl⟩ | ⟨call, target, rfl⟩ | ⟨m, rfl⟩
  · exact ⟨_, .still _⟩
  all_goals exact ⟨_, Cluster.progress_after h.sound _ n⟩

theorem Happens.at_place (he : Happens t c e t' c') (place : Nat) :
    (t'.flights[place]? = t.flights[place]? ∧ (e ≠ .step place ∨ t' = t ∧
        ∀ f, t.flights[place]? = some f → Flight.step f.invocation t.world f.phase = none)) ∨
      (∃ i, e = .launch i ∧ c' = c ∧ t.flights[place]? = none ∧
        t'.flights[place]? = some (Flight.launch i t.world.now)) ∨
      ∃ f ph new, e = .step place ∧ t.flights[place]? = some f ∧
        t'.flights[place]? = some { f with phase := ph } ∧
        Flight.Move f.invocation t.world c f.phase ph c' new ∧
        t'.world.submissions = t.world.submissions ++ new := by
  cases he with
  | cluster e => exact Or.inl ⟨rfl, Or.inl (by simp)⟩
  | pass ticks => exact Or.inl ⟨rfl, Or.inl (by simp)⟩
  | launch i =>
      rcases Nat.lt_trichotomy place t.flights.length with hlt | rfl | hgt
      · exact Or.inl ⟨List.getElem?_append_left hlt, Or.inl (by simp)⟩
      · exact Or.inr (Or.inl ⟨i, rfl, rfl, by simp, by simp⟩)
      · refine Or.inl ⟨?_, Or.inl (by simp)⟩
        rw [List.getElem?_eq_none (by simp; omega), List.getElem?_eq_none (by omega)]
  | idle p hnone =>
      refine Or.inl ⟨rfl, ?_⟩
      by_cases hp : p = place
      · exact Or.inr ⟨rfl, hp ▸ hnone⟩
      · exact Or.inl (by simp [hp])
  | @move p f ph c' new w hf hm hw hnow hnew =>
      by_cases hne : p = place
      · subst hne
        have hset := List.getElem?_set_self (a := { f with phase := ph })
          (List.getElem?_eq_some_iff.1 hf).1
        exact Or.inr (Or.inr ⟨f, ph, new, rfl, hf, hset, hm, hnew⟩)
      · refine Or.inl ⟨List.getElem?_set_ne hne, Or.inl ?_⟩
        intro heq
        cases heq
        exact hne rfl

theorem Steady.afterAll (h : Steady t c) (es : List Event) : ∃ c', Steady (t.afterAll es) c' := by
  induction es generalizing t c with
  | nil => exact ⟨c, h⟩
  | cons e es ih =>
      obtain ⟨c', -, h'⟩ := h.after e
      exact ih h'

theorem Steady.invariant {P : Cluster → Prop} (h : Steady t c) (hc : P c)
    (hP : ∀ {c : Cluster} (e : Cluster.Event), c.Sound → P c → P (c.after e)) (es : List Event) :
    ∃ c', Steady (t.afterAll es) c' ∧ P c' := by
  induction es generalizing t c with
  | nil => exact ⟨c, h, hc⟩
  | cons e es ih =>
      obtain ⟨c', he, h'⟩ := h.after e
      refine ih h' ?_
      rcases he.reaches with rfl | ⟨e', -, rfl⟩ | ⟨call, target, rfl⟩ | ⟨m, rfl⟩
      · exact hc
      all_goals exact hP _ h.sound hc

theorem Steady.unique (h : Steady t c) (h' : Steady t c') : c = c' := by
  have hsame := h.cluster.symm.trans h'.cluster
  cases hsame
  rfl

theorem steady_begin {c : Cluster} (h : c.Sound) : Steady (.begin c) c :=
  ⟨rfl, h, fun place f hf => by simp [begin] at hf⟩

def stage? (t : Traffic) (n : Nat) : Option Stage := t.world.cluster?.bind (·.stage? n)

theorem Steady.stage?_eq (h : Steady t c) (n : Nat) : t.stage? n = c.stage? n := by
  simp [stage?, World.cluster?, h.cluster]

theorem Steady.phase_after (h : Steady t c) (hf : t.flights[place]? = some ⟨i, ph⟩) (e : Event) :
    (t.after e).flights[place]? = some ⟨i, ph⟩ ∨
      ∃ ph' c' new, e = .step place ∧ (t.after e).flights[place]? = some ⟨i, ph'⟩ ∧
        Flight.Move i t.world c ph ph' c' new := by
  obtain ⟨c', he⟩ := h.happens e
  rcases he.at_place place with ⟨hsame, -⟩ | ⟨j, -, -, hnone, -⟩ | ⟨g, q, new, hstep, hg, hg', hm, -⟩
  · exact Or.inl (hsame.trans hf)
  · cases hnone.symm.trans hf
  · cases hg.symm.trans hf
    exact Or.inr ⟨q, c', new, hstep, hg', hm⟩

theorem Steady.settled_after (h : Steady t c) {r : Except DispatchError Json} {tick : Nat}
    (hf : t.flights[place]? = some ⟨i, .settled r tick⟩) (e : Event) :
    (t.after e).flights[place]? = some ⟨i, .settled r tick⟩ := by
  rcases h.phase_after hf e with hsame | ⟨ph, c', new, -, -, hm⟩
  · exact hsame
  · cases hm

theorem Steady.settled_afterAll (h : Steady t c) {r : Except DispatchError Json} {tick : Nat}
    (hf : t.flights[place]? = some ⟨i, .settled r tick⟩) (es : List Event) :
    (t.afterAll es).flights[place]? = some ⟨i, .settled r tick⟩ := by
  induction es generalizing t c with
  | nil => exact hf
  | cons e es ih =>
      obtain ⟨c', -, h'⟩ := h.after e
      exact ih h' (h.settled_after hf e)

theorem Steady.keeps (h : Steady t c) (he : Happens t c e t' c') : Cluster.Keeps c c' := by
  rcases he.reaches with rfl | ⟨e', rfl, rfl⟩ | ⟨call, target, rfl⟩ | ⟨m, rfl⟩
  · exact fun _ _ hs _ => hs
  all_goals exact Cluster.keeps_after h.sound _

theorem Steady.result_kept {p : Pending} (h : Steady t c) (h' : Steady t' c') (hk : Cluster.Keeps c c')
    {r : CallResult} (hr : t.world.result? p = some r) : t'.world.result? p = some r := by
  obtain ⟨hold, hook⟩ := p
  cases hold with
  | course due course => cases course <;> exact hr
  | task m =>
      simp only [World.result?, World.cluster?, h.cluster, h'.cluster, Option.bind_some,
        Cluster.taskResult?_eq] at hr ⊢
      obtain ⟨s, hs, hres⟩ := Option.bind_eq_some_iff.1 hr
      rw [hk m s hs (by simp [hres])]
      exact hres

theorem Steady.result_of_task (h : Steady t c) {r : CallResult}
    (hr : t.world.result? (.ofTask m) = some r) :
    ∃ s, t.stage? m = some s ∧ s.result? m = some r := by
  rw [World.result?_ofTask h.cluster, Cluster.taskResult?_eq] at hr
  rw [h.stage?_eq]
  exact Option.bind_eq_some_iff.1 hr

theorem Steady.stage_kept (h : Steady t c) {r : CallResult}
    (hr : t.world.result? (.ofTask m) = some r) (e : Event) :
    (t.after e).stage? m = t.stage? m := by
  obtain ⟨c', he, h'⟩ := h.after e
  obtain ⟨x, hx, hres⟩ := h.result_of_task hr
  rw [hx, h'.stage?_eq]
  rw [h.stage?_eq] at hx
  exact h.keeps he m x hx (by simp [hres])

theorem concerning_step (t : Traffic) (p m : Nat) :
    (t.signals (.step p)).filter (·.concerns m) = [] := by
  simp only [signals]
  split
  · rfl
  · exact filter_concerns_sent ..

theorem Steady.quiet_of_result (h : Steady t c) {r : CallResult}
    (hr : t.world.result? (.ofTask m) = some r) (e : Event) :
    (t.signals e).filter (·.concerns m) = [] := by
  obtain ⟨x, hx, hres⟩ := h.result_of_task hr
  rw [h.stage?_eq] at hx
  cases e with
  | cluster e =>
      have hp := Cluster.progress_after h.sound e m
      rw [signals_cluster h.cluster]
      rw [hx] at hp
      exact hp.quiet (by simp [hres])
  | pass ticks => rfl
  | launch i => rfl
  | step place => exact t.concerning_step place m

theorem Steady.inert_of_result (h : Steady t c) {r : CallResult}
    (hr : t.world.result? (.ofTask m) = some r) (now : Nat) :
    t.after (.cluster (.run now m)) = t := by
  obtain ⟨x, hx, hres⟩ := h.result_of_task hr
  rw [h.stage?_eq] at hx
  have hstill : c.runTaskAt now m = c := by
    obtain ⟨task, ht, rfl⟩ := Option.map_eq_some_iff.1 hx
    simp only [Cluster.runTaskAt, ht]
    unfold Cluster.runTask
    split
    · next hq => simp [hq, Stage.result?] at hres
    · next hq => simp [hq, Stage.result?] at hres
    · rfl
  have hafter : t.after (.cluster (.run now m)) =
      { t with world := { t.world with substrate := .cluster (c.runTaskAt now m) } } := by
    simp [Traffic.after, World.mapCluster, h.cluster, Cluster.after]
  rw [hafter, hstill, ← h.cluster]

theorem Steady.ended_afterAll (h : Steady t c) {r : CallResult}
    (hr : t.world.result? (.ofTask m) = some r) (es : List Event) :
    (∃ c', Steady (t.afterAll es) c') ∧ (t.afterAll es).world.result? (.ofTask m) = some r ∧
      (t.afterAll es).stage? m = t.stage? m ∧ (t.log es).filter (·.concerns m) = [] := by
  induction es generalizing t c with
  | nil => exact ⟨⟨c, h⟩, hr, rfl, rfl⟩
  | cons e es ih =>
      obtain ⟨c', he, h'⟩ := h.after e
      obtain ⟨hsteady, hresult, hstage, hlog⟩ := ih h' (h.result_kept h' (h.keeps he) hr)
      refine ⟨hsteady, hresult, hstage.trans (h.stage_kept hr e), ?_⟩
      rw [log, List.filter_append, h.quiet_of_result hr e, hlog]
      rfl

def submits (t : Traffic) (place : Nat) : Event → List Submission
  | .step p =>
      if p = place then
        (t.after (.step p)).world.submissions.drop t.world.submissions.length
      else []
  | _ => []

def submittedBy (t : Traffic) (place : Nat) : List Event → List Submission
  | [] => []
  | e :: es => t.submits place e ++ (t.after e).submittedBy place es

theorem submits_elsewhere (h : e ≠ .step place ∨ t.after e = t) : t.submits place e = [] := by
  cases e with
  | step p =>
      simp only [submits]
      split
      · next hp =>
          subst hp
          rcases h with h | h
          · exact absurd rfl h
          · rw [h, List.drop_length]
      · rfl
  | _ => rfl

def tally (cost : Traffic → Event → Nat) (t : Traffic) : List Event → Nat
  | [] => 0
  | e :: es => cost t e + (t.after e).tally cost es

theorem length_submittedBy (t : Traffic) (place : Nat) (es : List Event) :
    (t.submittedBy place es).length = t.tally (fun t e => (t.submits place e).length) es := by
  induction es generalizing t with
  | nil => rfl
  | cons e es ih => rw [submittedBy, List.length_append, ih, tally]

end Traffic

end Switchboard

import Switchboard.Proofs.Cluster.Closing
import Switchboard.Proofs.Dispatch.Ownership
import Switchboard.Proofs.Dispatch.Selection

namespace Switchboard

variable {c c' : Cluster} {t t' down : Traffic} {e : Traffic.Event} {i : Invocation} {w : World}
  {ph ph' : Phase} {new : List Submission} {place n m : Nat} {p : Pending}

namespace Traffic

theorem Steady.down_after (h : Steady t c) (hd : c.Down) (es : List Event) :
    ∃ c', Steady (t.afterAll es) c' ∧ c'.Down ∧ c'.executed = c.executed :=
  h.invariant (P := fun d => d.Down ∧ d.executed = c.executed) ⟨hd, rfl⟩
    (fun e _ hP => ⟨hP.1.after e, (hP.1.executed e).trans hP.2⟩) es

theorem Steady.shut_down (h : Steady t c) (hrun : c.running = true ∨ c.Down) (es : List Event) :
    ∃ c', Steady (t.afterAll (es ++ [.cluster (.operate .shutdown)])) c' ∧ c'.Down := by
  obtain ⟨c', h', hrun'⟩ := h.invariant (P := fun d => d.running = true ∨ d.Down) hrun
    (fun e _ hP => Cluster.running_after hP e) es
  rw [afterAll_append]
  exact ⟨_, h'.next (h'.happens_cluster _), .reached hrun'⟩

theorem Steady.uninvoked (h : Steady t c) (hd : c.Down) (es : List Event) (n : Nat) :
    .invoked n ∉ t.log es := by
  induction es generalizing t c with
  | nil => exact List.not_mem_nil
  | cons e es ih =>
      obtain ⟨c', h', hd', -⟩ := h.down_after hd [e]
      have hfirst : .invoked n ∉ t.signals e := by
        cases e with
        | cluster e =>
            rw [signals_cluster h.cluster]
            exact hd.uninvoked h.sound e n
        | step place =>
            simp only [signals]
            split <;> simp
        | _ => exact List.not_mem_nil
      rw [log, List.mem_append, not_or]
      exact ⟨hfirst, ih h' hd'⟩

end Traffic

def Pending.isFinal (p : Pending) : Bool :=
  match p.hold with
  | .course _ (.result (.error (.remote _))) => true
  | _ => false

namespace Phase

def isPreparing : Phase → Bool
  | preparing _ => true
  | _ => false

def tries : Phase → Nat
  | preparing _ | resting _ _ => 1
  | waiting _ p _ => if p.isFinal then 0 else 1
  | settled _ _ => 0

def ahead : Phase → Nat
  | preparing _ => 2
  | resting _ _ => 3
  | waiting _ p _ => if p.isFinal then 1 else 4
  | settled _ _ => 0

theorem tries_le (ph : Phase) : ph.tries ≤ 1 := by
  unfold tries
  split <;> try split
  all_goals decide

theorem ahead_le (ph : Phase) : ph.ahead ≤ 4 := by
  unfold ahead
  split <;> try split
  all_goals decide

end Phase

theorem result_of_final {r : CallResult} (hp : p.isFinal = true) (hr : w.result? p = some r) :
    ∃ x, r = .error (.remote x) := by
  obtain ⟨hold, hook⟩ := p
  unfold Pending.isFinal at hp
  split at hp
  · next due x hhold =>
      obtain rfl : hold = .course due (.result (.error (.remote x))) := hhold
      cases hr
      exact ⟨x, rfl⟩
  · cases hp

theorem move_down (hd : c.Down) (h : Flight.Move i w c ph ph' c' new) :
    ph.isPreparing.toNat + ph'.tries ≤ ph.tries ∧ new.length + ph'.tries ≤ ph.tries ∧
      1 + ph'.ahead ≤ ph.ahead := by
  cases h with
  | @submit n call target hp =>
      rw [Cluster.submit_down hd]
      exact ⟨Nat.le_refl _, Nat.le_refl _, Nat.le_refl _⟩
  | @conclude n deadline p r hr =>
      cases hfinal : p.isFinal with
      | true =>
          obtain ⟨x, rfl⟩ := result_of_final hfinal hr
          simp [Phase.isPreparing, Phase.tries, Phase.ahead, Flight.conclude, hfinal]
      | false =>
          rcases Flight.conclude_cases i n w.now r with hc | ⟨-, hc⟩ <;>
            simp [hc, Phase.isPreparing, Phase.tries, Phase.ahead, hfinal]
  | @expire n deadline p c' hr hdue hc =>
      cases hfinal : p.isFinal <;> simp [Phase.isPreparing, Phase.tries, Phase.ahead, hfinal]
  | _ => simp [Phase.isPreparing, Phase.tries, Phase.ahead]

namespace Traffic

def begins (t : Traffic) (place : Nat) : Event → Bool
  | .step p => decide (p = place) && ((t.flights[place]?).map (·.phase.isPreparing)).getD false
  | _ => false

def advances (t : Traffic) (place : Nat) : Event → Bool
  | .step p =>
      decide (p = place) && ((t.flights[place]?).bind fun f =>
        Flight.step f.invocation t.world (Flight.follow t.world.now f.phase)).isSome
  | _ => false

def attempts (t : Traffic) (place : Nat) (es : List Event) : Nat :=
  t.tally (fun t e => (t.begins place e).toNat) es

def advancesBy (t : Traffic) (place : Nat) (es : List Event) : Nat :=
  t.tally (fun t e => (t.advances place e).toNat) es

def stock (V : Phase → Nat) (most : Nat) (t : Traffic) (place : Nat) : Nat :=
  ((t.flights[place]?).map fun f => V f.phase).getD most

theorem Steady.spent_le (cost : Traffic → Event → Nat) (V : Phase → Nat) (most place : Nat)
    (hfree : ∀ {t : Traffic} {c : Cluster} {e : Event}, Steady t c →
      (e ≠ .step place ∨ t.after e = t ∧ ∀ f, t.flights[place]? = some f →
        Flight.step f.invocation t.world f.phase = none) → cost t e = 0)
    (hmove : ∀ {t : Traffic} {c c' : Cluster} {f : Flight} {ph : Phase} {new : List Submission},
      c.Down → t.flights[place]? = some f → Flight.Move f.invocation t.world c f.phase ph c' new →
      (t.after (.step place)).world.submissions = t.world.submissions ++ new →
      cost t (.step place) + V ph ≤ V f.phase)
    (hlaunch : ∀ i now, V (Flight.launch i now).phase ≤ most)
    (h : Steady t c) (hd : c.Down) (es : List Event) :
    t.tally cost es + (t.afterAll es).stock V most place ≤ t.stock V most place := by
  induction es generalizing t c with
  | nil => exact Nat.le_of_eq (Nat.zero_add _)
  | cons e es ih =>
      obtain ⟨c', he, h'⟩ := h.after e
      obtain ⟨c'', h'', hd', -⟩ := h.down_after hd [e]
      obtain rfl := h'.unique h''
      have hrest := ih h' hd'
      have hfirst : cost t e + (t.after e).stock V most place ≤ t.stock V most place := by
        rcases he.at_place place with ⟨hsame, helse⟩ | ⟨i, rfl, -, hnone, hsome⟩ |
          ⟨f, ph, new, rfl, hf, hf', hm, hnew⟩
        · rw [hfree h helse, stock, stock, hsame, Nat.zero_add]
        · rw [hfree h (Or.inl (by simp)), stock, stock, hsome, hnone, Nat.zero_add]
          exact hlaunch i t.world.now
        · rw [stock, stock, hf', hf]
          exact hmove hd hf hm hnew
      rw [tally, Nat.add_assoc]
      exact Nat.le_trans (Nat.add_le_add_left hrest _) hfirst

theorem begins_free (h : e ≠ .step place ∨ t.after e = t ∧ ∀ f, t.flights[place]? = some f →
    Flight.step f.invocation t.world f.phase = none) : t.begins place e = false := by
  cases e with
  | step p =>
      by_cases hp : p = place
      · subst hp
        rcases h with h | ⟨-, hnone⟩
        · exact absurd rfl h
        cases hf : t.flights[p]? with
        | none => simp [begins, hf]
        | some f =>
            have hstep := hnone f hf
            obtain ⟨i, ph⟩ := f
            cases ph with
            | preparing n => cases hstep
            | _ => simp [begins, hf, Phase.isPreparing]
      · simp [begins, hp]
  | _ => rfl

theorem Steady.advances_free (hs : Steady t c)
    (h : e ≠ .step place ∨ t.after e = t ∧ ∀ f, t.flights[place]? = some f →
      Flight.step f.invocation t.world f.phase = none) : t.advances place e = false := by
  cases e with
  | step p =>
      by_cases hp : p = place
      · subst hp
        rcases h with h | ⟨-, hnone⟩
        · exact absurd rfl h
        cases hf : t.flights[p]? with
        | none => simp [advances, hf]
        | some f =>
            have hplain : Flight.follow t.world.now f.phase = f.phase := (hs.plain p f hf).follow _
            simp [advances, hf, hplain, hnone f hf]
      · simp [advances, hp]
  | _ => rfl

theorem stock_le {V : Phase → Nat} {most : Nat} (h : ∀ ph, V ph ≤ most) (t : Traffic)
    (place : Nat) : t.stock V most place ≤ most := by
  unfold stock
  cases t.flights[place]? with
  | none => exact Nat.le_refl _
  | some f => exact h f.phase

theorem Steady.attempts_down (h : Steady t c) (hd : c.Down) (place : Nat) (es : List Event) :
    t.attempts place es ≤ 1 := by
  have hspent := h.spent_le (fun t e => (t.begins place e).toNat) Phase.tries 1 place
    (fun _ he => by rw [begins_free he]; rfl)
    (fun hd hf hm _ => by simpa [begins, hf] using (move_down hd hm).1)
    (fun i now => Phase.tries_le _) hd es
  exact Nat.le_trans (Nat.le_of_add_right_le hspent) (stock_le Phase.tries_le t place)

theorem Steady.submissions_down (h : Steady t c) (hd : c.Down) (place : Nat) (es : List Event) :
    (t.submittedBy place es).length ≤ 1 := by
  have hspent := h.spent_le (fun t e => (t.submits place e).length) Phase.tries 1 place
    (fun _ he => by rw [submits_elsewhere (he.imp_right And.left)]; rfl)
    (fun hd hf hm hnew => by simpa [submits, hnew] using (move_down hd hm).2.1)
    (fun i now => Phase.tries_le _) hd es
  rw [length_submittedBy]
  exact Nat.le_trans (Nat.le_of_add_right_le hspent) (stock_le Phase.tries_le t place)

theorem Steady.advances_down (h : Steady t c) (hd : c.Down) (place : Nat) (es : List Event) :
    t.advancesBy place es ≤ 4 := by
  have hspent := h.spent_le (fun t e => (t.advances place e).toNat) Phase.ahead 4 place
    (fun hs he => by rw [hs.advances_free he]; rfl)
    (fun hd hf hm _ =>
      Nat.le_trans (Nat.add_le_add_right (Bool.toNat_le _) _) (move_down hd hm).2.2)
    (fun i now => Phase.ahead_le _) hd es
  exact Nat.le_trans (Nat.le_of_add_right_le hspent) (stock_le Phase.ahead_le t place)

end Traffic

theorem Flight.goes_on {f : Flight} (h : f.isSettled = false) :
    ∃ tick, ∀ w : World, tick ≤ w.now →
      (Flight.step f.invocation w (Flight.follow w.now f.phase)).isSome := by
  obtain ⟨i, ph⟩ := f
  cases ph with
  | preparing n => exact ⟨0, fun w _ => rfl⟩
  | resting n wake => exact ⟨wake, fun w hw => by simp [Flight.follow, Flight.step, hw]⟩
  | waiting n p deadline =>
      refine ⟨deadline, fun w hw => ?_⟩
      simp only [Flight.follow, Flight.step]
      split
      · rfl
      · rw [if_pos hw]
        rfl
  | settled r tick => cases h

namespace Traffic

inductive Underway (t : Traffic) : Pending → Prop
  | answered (e : CallFailure) : Underway t (.settled (.error e))
  | started {m : Nat} {s : Stage} : t.stage? m = some s → s ≠ .queued → s ≠ .aborted →
      Underway t (.ofTask m)

inductive Ending (down last : Traffic) (place : Nat) (i : Invocation) :
    Except DispatchError Json → Prop
  | served {n deadline : Nat} {p : Pending} {r : CallResult} :
      down.flights[place]? = some ⟨i, .waiting n p deadline⟩ → down.Underway p →
      last.world.result? p = some r → Ending down last place i (i.verdict n r)
  | timeout : Ending down last place i (.error (.timeout i.qualified i.route.timeout))
  | caller (e : CallerError) : Ending down last place i (.error (.caller e))
  | noTarget (source : PolicyError) :
      Ending down last place i (.error (.noTarget i.qualified source))
  | closed : Ending down last place i
      (.error (.remote ((Cluster.closedError i.call).stitch (i.site.frames i.qualified))))
  | exhausted (n : Nat) : Ending down last place i (.error (.retriesExhausted i.qualified n))

inductive Fading (down t : Traffic) (place : Nat) (i : Invocation) : Phase → Prop
  | preparing (n : Nat) : Fading down t place i (.preparing n)
  | resting (n wake : Nat) : Fading down t place i (.resting n wake)
  | closed (n deadline : Nat) : Fading down t place i
      (.waiting n (.settled (.error (.remote (Cluster.closedError i.call)))) deadline)
  | left {m : Nat} (n deadline : Nat) : t.stage? m = some .queued ∨
      (∃ id, t.stage? m = some (.refused (.memberLeft id))) →
      Fading down t place i (.waiting n (.ofTask m) deadline)
  | underway {n deadline : Nat} {p : Pending} :
      down.flights[place]? = some ⟨i, .waiting n p deadline⟩ → down.Underway p →
      Fading down t place i (.waiting n p deadline)
  | settled {r : Except DispatchError Json} (tick : Nat) : Ending down t place i r →
      Fading down t place i (.settled r tick)

theorem Ending.kept {r : Except DispatchError Json} (he : Ending down t place i r)
    (h : Steady t c) (h' : Steady t' c') (hk : Cluster.Keeps c c') : Ending down t' place i r := by
  cases he with
  | served hf hu hr => exact .served hf hu (h.result_kept h' hk hr)
  | timeout => exact .timeout
  | caller e => exact .caller e
  | noTarget source => exact .noTarget source
  | closed => exact .closed
  | exhausted n => exact .exhausted n

theorem Fading.conclude {deadline : Nat} {r : CallResult}
    (hf : Fading down t place i (.waiting n p deadline)) (h : Steady t c) (h' : Steady t' c)
    (hr : t.world.result? p = some r) (now : Nat) :
    Fading down t' place i (Flight.conclude i n now r) := by
  cases hf with
  | closed =>
      cases hr
      exact .settled now .closed
  | @left m _ _ hleft =>
      obtain ⟨s, hs, hres⟩ := h.result_of_task hr
      rcases hleft with hq | ⟨id, href⟩
      · rw [hq] at hs
        cases hs
        cases hres
      · rw [href] at hs
        cases hs
        cases hres
        rcases Flight.conclude_cases i n now (.error (.memberLeft id)) with hc | ⟨-, hc⟩
        · exact hc ▸ .settled now (.exhausted n)
        · exact hc ▸ .resting n _
  | underway hdown hu =>
      rcases Flight.conclude_cases i n now r with hc | ⟨-, hc⟩
      · have hkept := h.result_kept h' (fun _ _ hs _ => hs) hr
        exact hc ▸ .settled now (.served hdown hu hkept)
      · exact hc ▸ .resting n _

theorem Fading.move (hf : Fading down t place i ph) (h : Steady t c) (hd : c.Down)
    (hm : Flight.Move i t.world c ph ph' c' new) (h' : Steady t' c') :
    Fading down t' place i ph' := by
  cases hm with
  | unprepared hp =>
      rcases Invocation.prepare_error hp with ⟨e, rfl⟩ | ⟨source, rfl⟩
      · exact .settled _ (.caller e)
      · exact .settled _ (.noTarget source)
  | @submit n call target hp =>
      have hsame : Cluster.closedError call = Cluster.closedError i.call := by
        rw [Cluster.closedError, Cluster.closedError, Invocation.qualified_of_prepare hp]
      rw [Cluster.submit_down hd, hsame]
      exact .closed n _
  | conclude hr => exact hf.conclude h h' hr _
  | expire hr hdue hc => exact .settled _ .timeout
  | wake hwake => exact .preparing _

theorem Steady.queued_down (h : Steady t c) (hd : c.Down) (he : Happens t c e t' c')
    (hq : c.stage? m = some .queued) :
    c'.stage? m = some .queued ∨ (∃ id, c'.stage? m = some (.refused (.memberLeft id))) ∨
      c'.stage? m = some .aborted := by
  rcases he.reaches with rfl | ⟨e', rfl, rfl⟩ | ⟨call, target, rfl⟩ | ⟨k, rfl⟩
  · exact Or.inl hq
  all_goals exact hd.queued_after h.sound hq _

theorem Fading.elsewhere (hf : Fading down t place i ph) (h : Steady t c) (hd : c.Down)
    (he : Happens t c e t' c') (h' : Orderly t' c') (hplace : t'.flights[place]? = some ⟨i, ph⟩) :
    Fading down t' place i ph := by
  cases hf with
  | @left m n deadline hleft =>
      refine .left n deadline ?_
      rw [h.stage?_eq] at hleft
      rw [h'.steady.stage?_eq]
      rcases hleft with hq | ⟨id, href⟩
      · rcases h.queued_down hd he hq with hq' | href | ha
        · exact Or.inl hq'
        · exact Or.inr href
        · obtain ⟨s, hs, hlive⟩ := h'.lasting place m ⟨i, n, deadline, hplace⟩
          rw [ha] at hs
          cases hs
          exact absurd rfl hlive
      · exact Or.inr ⟨id, h.keeps he m _ href rfl⟩
  | settled tick hend => exact .settled tick (hend.kept h h'.steady (h.keeps he))
  | preparing n => exact .preparing n
  | resting n wake => exact .resting n wake
  | closed n deadline => exact .closed n deadline
  | underway hdown hu => exact .underway hdown hu

theorem fading_launch (i : Invocation) (now : Nat) :
    Fading down t place i (Flight.launch i now).phase := by
  unfold Flight.launch
  split
  · exact .preparing 1
  · exact .settled now (.caller _)

theorem Orderly.fades (h : Orderly t c) (hd : c.Down) {es : List Event} (hprivate : t.Private es)
    (hstart : ∀ f, t.flights[place]? = some f → Fading down t place f.invocation f.phase) :
    ∀ f, (t.afterAll es).flights[place]? = some f →
      Fading down (t.afterAll es) place f.invocation f.phase := by
  induction es generalizing t c with
  | nil => exact hstart
  | cons e es ih =>
      obtain ⟨hfirst, hrest⟩ := hprivate.cons
      obtain ⟨c', he⟩ := h.steady.happens e
      have h' := h.next he hfirst
      obtain ⟨c'', h'', hd', -⟩ := h.steady.down_after hd [e]
      obtain rfl := h'.steady.unique h''
      refine ih h' hd' hrest fun f hf => ?_
      rcases he.at_place place with ⟨hsame, -⟩ | ⟨j, -, -, -, hsome⟩ |
        ⟨g, ph, new, -, hg, hg', hm, -⟩
      · exact (hstart f (hsame ▸ hf)).elsewhere h.steady hd he h' hf
      · rw [hsome, Flight.launch_eq] at hf
        cases hf
        exact fading_launch j t.world.now
      · rw [hg'] at hf
        cases hf
        exact (hstart g hg).move h.steady hd hm h'.steady

theorem Orderly.fading (h : Orderly t c) {f : Flight} (hf : t.flights[place]? = some f)
    (hopen : f.isSettled = false) : Fading t t place f.invocation f.phase := by
  have hplain := h.steady.plain place f hf
  obtain ⟨i, ph⟩ := f
  cases ph with
  | preparing n => exact .preparing n
  | resting n wake => exact .resting n wake
  | settled r tick => cases hopen
  | waiting n p deadline =>
      cases hplain with
      | failed x => exact .underway hf (.answered x)
      | task m =>
          obtain ⟨s, hs, hlive⟩ := h.lasting place m ⟨i, n, deadline, hf⟩
          have hstage : t.stage? m = some s := (h.steady.stage?_eq m).trans hs
          by_cases hq : s = .queued
          · exact .left n deadline (Or.inl (hq ▸ hstage))
          · exact .underway hf (.started hstage hq hlive)

end Traffic

/-- Once a cluster has been shut down no task comes to a handler, and every submission fails at
once. A call makes one more attempt at most and then ends, as one that was under way before, by its
timeout, without a target or a valid argument, with the error of the cluster, or for want of further
attempts. -/
theorem calls_after_shutdown {config : ClusterConfig} {c₀ : Cluster}
    (hnew : Cluster.create config = .ok c₀) (before after : List Traffic.Event) :
    let down := (Traffic.begin c₀).afterAll (before ++ [.cluster (.operate .shutdown)])
    let last := down.afterAll after
    (∀ n, .invoked n ∉ down.log after) ∧
    (∃ c c', down.world.substrate = .cluster c ∧ last.world.substrate = .cluster c' ∧
      c'.executed = c.executed ∧ ∀ call target, c'.submit call target =
        (.settled (.error (.remote (Cluster.closedError call))), c')) ∧
    (∀ (i : Invocation) (p : RoutingPolicy), i.route.ByPlace → i.route.target = .balanced p →
      (i.prepare last.world).1 = .error (.noTarget i.qualified (.noMembers p.name))) ∧
    ∀ place, (down.submittedBy place after).length ≤ 1 ∧ down.attempts place after ≤ 1 ∧
      down.advancesBy place after ≤ 4 ∧
      ∀ f, last.flights[place]? = some f →
        (f.isSettled = false → ∃ tick, ∀ w : World, tick ≤ w.now →
          (Flight.step f.invocation w (Flight.follow w.now f.phase)).isSome) ∧
        ∀ r tick, f.phase = .settled r tick →
          (∀ g, down.flights[place]? = some g → g.isSettled = false) →
          (Traffic.begin c₀).Private (before ++ .cluster (.operate .shutdown) :: after) →
          down.Ending last place f.invocation r := by
  intro down last
  obtain ⟨rfl, hpos⟩ := Cluster.create_eq hnew
  have hbegin := Traffic.orderly_begin (Cluster.sound_new hpos)
  obtain ⟨c, hc, hd⟩ := hbegin.steady.shut_down (Or.inl rfl) before
  obtain ⟨c', hc', hd', hexecuted⟩ := hc.down_after hd after
  refine ⟨hc.uninvoked hd after, ?_, ?_, ?_⟩
  · exact ⟨c, c', hc.cluster, hc'.cluster, hexecuted, fun call target => Cluster.submit_down hd' _ _⟩
  · intro i p hstd hp
    have halive : last.world.alive = [] := by
      rw [World.alive, hc'.cluster]
      exact Cluster.alive_down hd'
    exact hstd.without_members hp halive
  · intro place
    refine ⟨hc.submissions_down hd place after, hc.attempts_down hd place after,
      hc.advances_down hd place after, fun f hf => ⟨Flight.goes_on, ?_⟩⟩
    intro r tick hr hopen hprivate
    have hsplit : before ++ .cluster (.operate .shutdown) :: after =
        (before ++ [.cluster (.operate .shutdown)]) ++ after := by simp
    rw [hsplit] at hprivate
    obtain ⟨hfirst, hrest⟩ := hprivate.append
    obtain ⟨d, hdown⟩ := hbegin.afterAll hfirst
    obtain rfl := hdown.steady.unique hc
    have hstart : ∀ g, down.flights[place]? = some g →
        Traffic.Fading down down place g.invocation g.phase := fun g hg => hdown.fading hg (hopen g hg)
    have hfades := hdown.fades hd hrest hstart f hf
    rw [hr] at hfades
    cases hfades with
    | settled tick hend => exact hend

def insisting : RoutingPolicy := ⟨"insisting", fun _ _ c => (.ok ⟨"a", "x", false⟩, c)⟩

def insistent : Invocation :=
  ⟨"s", "S", ⟨⟨"m", []⟩, .balanced insisting, .ofMillis 100, false⟩, .standalone 0, [],
    ⟨.ofMillis 5, none⟩, ⟨"f", 1⟩⟩

def underTask : List Traffic.Event := [joining, .launch insistent, .step 0]

def fadingOut : List Traffic.Event :=
  [.cluster (.run 0 0), .step 0, .pass 5, .step 0, .step 0, .step 0]

theorem calls_after_shutdown_of_insistent :
    let down := (Traffic.begin (.new ⟨1, "s"⟩)).afterAll
      (underTask ++ [.cluster (.operate .shutdown)])
    (down.submittedBy 0 fadingOut).length = 1 ∧ down.attempts 0 fadingOut = 1 ∧
      down.advancesBy 0 fadingOut = 4 ∧
      (down.submittedBy 0 fadingOut).length ≤ 1 ∧ down.attempts 0 fadingOut ≤ 1 ∧
      down.advancesBy 0 fadingOut ≤ 4 ∧
      down.Ending (down.afterAll fadingOut) 0 insistent (.error (.remote
        ((Cluster.closedError insistent.call).stitch (insistent.site.frames "S.m")))) := by
  intro down
  have hnew : Cluster.create ⟨1, "s"⟩ = .ok (.new ⟨1, "s"⟩) := rfl
  obtain ⟨-, -, -, hplace⟩ := calls_after_shutdown hnew underTask fadingOut
  obtain ⟨hsubmissions, hattempts, hadvances, hend⟩ := hplace 0
  have hopen : ∀ g, down.flights[0]? = some g → g.isSettled = false := by
    rintro g hg
    obtain rfl : ⟨insistent, .waiting 1 (.ofTask 0) 100⟩ = g := Option.some.inj hg
    rfl
  have hprivate : (Traffic.begin (.new ⟨1, "s"⟩)).Private
      (underTask ++ .cluster (.operate .shutdown) :: fadingOut) := by
    intro first m rest hsplit
    have hmem : Traffic.Event.cluster (.abort m) ∈
        underTask ++ .cluster (.operate .shutdown) :: fadingOut := by simp [hsplit]
    simp [underTask, fadingOut, joining] at hmem
  refine ⟨rfl, rfl, rfl, hsubmissions, hattempts, hadvances, ?_⟩
  exact (hend ⟨insistent, .settled _ 5⟩ rfl).2 _ 5 rfl hopen hprivate

end Switchboard

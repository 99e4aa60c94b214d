import Switchboard.Proofs.Dispatch.Interruption

namespace Switchboard

def Invocation.within (i : Invocation) (limit : Duration) : Invocation :=
  { i with route := { i.route with timeout := limit } }

theorem Invocation.prepare_within (i : Invocation) (limit : Duration) (w : World) :
    (i.within limit).prepare w = i.prepare w := rfl

inductive Phase.Alike : Phase → Phase → Prop
  | preparing (n : Nat) : Alike (.preparing n) (.preparing n)
  | waiting (n : Nat) (p : Pending) (deadline deadline' : Nat) :
      Alike (.waiting n p deadline) (.waiting n p deadline')
  | resting (n wake : Nat) : Alike (.resting n wake) (.resting n wake)
  | settled (r : Except DispatchError Json) (tick : Nat) :
      Alike (.settled r tick) (.settled r tick)

def Phase.Outlasts (last : Nat) : Phase → Prop
  | .waiting _ _ deadline => last < deadline
  | .settled (.error e) _ => e.isTimeout = false
  | _ => True

variable {i : Invocation} {w : World} {ph ph' : Phase} {limit : Duration} {last : Nat}

theorem Phase.Alike.refl (ph : Phase) : ph.Alike ph := by
  cases ph with
  | preparing n => exact .preparing n
  | waiting n p deadline => exact .waiting n p deadline deadline
  | resting n wake => exact .resting n wake
  | settled r tick => exact .settled r tick

theorem Phase.Alike.follow (h : ph.Alike ph') (now : Nat) :
    (Flight.follow now ph).Alike (Flight.follow now ph') := by
  cases h with
  | waiting n p deadline deadline' => exact .waiting n (p.follow now) deadline deadline'
  | preparing n => exact .preparing n
  | resting n wake => exact .resting n wake
  | settled r tick => exact .settled r tick

theorem Phase.Outlasts.follow (h : ph.Outlasts last) (now : Nat) :
    (Flight.follow now ph).Outlasts last := by
  cases ph <;> exact h

theorem Phase.Outlasts.mono {tick : Nat} (h : ph.Outlasts last) (htick : tick ≤ last) :
    ph.Outlasts tick := by
  cases ph with
  | waiting n p deadline => exact Nat.lt_of_le_of_lt htick h
  | settled r t => cases r <;> exact h
  | _ => exact trivial

theorem Phase.Outlasts.isOpen (h : ph.Outlasts last) : (Flight.mk i ph).timedOut = false := by
  cases ph with
  | settled r tick =>
      cases r with
      | ok v => rfl
      | error e => exact h
  | _ => rfl

theorem Phase.outlasts_launch (last : Nat) (i : Invocation) (now : Nat) :
    (Flight.launch i now).phase.Outlasts last := by
  unfold Flight.launch
  split
  · exact trivial
  · rfl

theorem Phase.outlasts_conclude (last : Nat) (i : Invocation) (n now : Nat) (r : CallResult) :
    (Flight.conclude i n now r).Outlasts last := by
  rcases Flight.conclude_cases i n now r with hc | ⟨-, hc⟩ <;> rw [hc]
  · cases hv : i.verdict n r with
    | ok v => exact trivial
    | error e => exact Invocation.verdict_not_timeout hv
  · exact trivial

theorem Phase.Outlasts.move {c c' : Cluster} {new : List Submission} (h : ph.Outlasts last)
    (hnow : w.now ≤ last) (hlimit : last < i.route.timeout.ticks)
    (hm : Flight.Move i w c ph ph' c' new) : ph'.Outlasts last := by
  cases hm with
  | unprepared hp => exact Invocation.prepare_not_timeout hp
  | submit hp => exact Nat.lt_of_lt_of_le hlimit (Nat.le_add_left ..)
  | conclude hr => exact outlasts_conclude last i _ _ _
  | expire hr hd _ => exact absurd (Nat.le_trans hd hnow) (Nat.not_le_of_lt h)
  | wake hwake => exact trivial

namespace Flight

theorem step_alike (i : Invocation) (limit : Duration) (h : ph.Alike ph')
    (hlasts : ph'.Outlasts w.now) :
    (step i w ph = none ∧ step (i.within limit) w ph' = none) ∨
      (∃ q q' w', step i w ph = some (q, w') ∧ step (i.within limit) w ph' = some (q', w') ∧
        q.Alike q') ∨
      ∃ p, step i w ph = some (expire i p w) := by
  cases h with
  | preparing n =>
      right; left
      have hstep (j : Invocation) : step j w (.preparing n) = some (attempt j n w) := rfl
      rw [hstep, hstep, attempt, attempt, Invocation.prepare_within]
      rcases i.prepare w with ⟨e | ⟨call, target⟩, w'⟩
      · exact ⟨_, _, _, rfl, rfl, .refl _⟩
      · exact ⟨_, _, _, rfl, rfl, .waiting ..⟩
  | waiting n p deadline deadline' =>
      have hopen : ¬deadline' ≤ w.now := Nat.not_le_of_lt hlasts
      simp only [step]
      cases w.result? p with
      | some r => exact Or.inr (Or.inl ⟨_, _, _, rfl, rfl, .refl _⟩)
      | none =>
          simp only [if_neg hopen]
          by_cases hd : deadline ≤ w.now
          · exact Or.inr (Or.inr ⟨p, if_pos hd⟩)
          · exact Or.inl ⟨if_neg hd, trivial⟩
  | resting n wake =>
      simp only [step]
      by_cases hwake : wake ≤ w.now
      · simp only [if_pos hwake]
        exact Or.inr (Or.inl ⟨_, _, _, rfl, rfl, .refl _⟩)
      · simp only [if_neg hwake]
        exact Or.inl ⟨trivial, trivial⟩
  | settled r tick => exact Or.inl ⟨rfl, rfl⟩

theorem drive_alike (i : Invocation) (limit : Duration) (h : ph.Alike ph')
    (hlasts : ph'.Outlasts w.now) :
    (∃ q q' w', q.Alike q' ∧ drive 1 w ⟨i, ph⟩ = (⟨i, q⟩, w') ∧
        drive 1 w ⟨i.within limit, ph'⟩ = (⟨i.within limit, q'⟩, w')) ∨
      (drive 1 w ⟨i, ph⟩).1.timedOut = true := by
  have hfollow := h.follow w.now
  rcases step_alike i limit hfollow (hlasts.follow w.now) with
    ⟨hidle, hidle'⟩ | ⟨q, q', w', hstep, hstep', hq⟩ | ⟨p, hexpire⟩
  · exact Or.inl ⟨_, _, w, hfollow, drive_of_none (f := ⟨i, ph⟩) hidle 1,
      drive_of_none (f := ⟨i.within limit, ph'⟩) hidle' 1⟩
  · exact Or.inl ⟨_, _, w', hq.follow w'.now, drive_of_some (f := ⟨i, ph⟩) hstep 0,
      drive_of_some (f := ⟨i.within limit, ph'⟩) hstep' 0⟩
  · right
    rw [drive_of_some (f := ⟨i, ph⟩) hexpire 0]
    rfl

theorem drive_waiting {m n deadline : Nat} (hopen : w.result? (.ofTask m) = none)
    (hlate : w.now < deadline) : drive 1 w ⟨i, .waiting n (.ofTask m) deadline⟩ =
      (⟨i, .waiting n (.ofTask m) deadline⟩, w) := by
  have hwaits : step i w (.waiting n (.ofTask m) deadline) = none := by
    simp only [step, hopen, if_neg (Nat.not_le_of_lt hlate)]
  exact drive_of_none (f := ⟨i, .waiting n (.ofTask m) deadline⟩) hwaits 1

end Flight

namespace Traffic

variable {s t u : Traffic} {c d : Cluster} {place m : Nat} {e : Event} {es : List Event}
  {f g f' g' : Flight}

theorem Steady.outlasts_after (h : Steady t c) (hf : t.flights[place]? = some ⟨i, ph⟩)
    (hlasts : ph.Outlasts last) (hlimit : last < i.route.timeout.ticks) (hnow : t.world.now ≤ last)
    (e : Event) :
    ∃ ph', (t.after e).flights[place]? = some ⟨i, ph'⟩ ∧ ph'.Outlasts last := by
  rcases h.phase_after hf e with hsame | ⟨q, c', new, -, hf', hm⟩
  · exact ⟨ph, hsame, hlasts⟩
  · exact ⟨q, hf', hlasts.move hnow hlimit hm⟩

theorem Steady.outlasts_afterAll (h : Steady t c) (hf : t.flights[place]? = some ⟨i, ph⟩)
    (hlasts : ph.Outlasts last) (hlimit : last < i.route.timeout.ticks)
    (hnow : (t.afterAll es).world.now ≤ last) :
    ∃ ph', (t.afterAll es).flights[place]? = some ⟨i, ph'⟩ ∧ ph'.Outlasts last := by
  induction es generalizing t c ph with
  | nil => exact ⟨ph, hf, hlasts⟩
  | cons e es ih =>
      have hstart : t.world.now ≤ last := Nat.le_trans (t.now_le_afterAll (e :: es)) hnow
      obtain ⟨c', -, h'⟩ := h.after e
      obtain ⟨q, hq, hlasts'⟩ := h.outlasts_after hf hlasts hlimit hstart e
      exact ih h' hq hlasts' hnow

theorem Steady.open_of_open (h : Steady t c)
    (hopen : ∀ f, (t.afterAll es).flights[place]? = some f → f.timedOut = false)
    (hf : t.flights[place]? = some f) : f.timedOut = false := by
  obtain ⟨i, ph⟩ := f
  cases ph with
  | settled r tick => exact hopen _ (h.settled_afterAll hf es)
  | _ => rfl

structure Twin (place : Nat) (s u : Traffic) (f g : Flight) : Prop where
  world : u.world = s.world
  here : s.flights[place]? = some f
  flights : u.flights = s.flights.set place g

theorem Twin.there (h : Twin place s u f g) : u.flights[place]? = some g := by
  rw [h.flights]
  exact List.getElem?_set_self (List.getElem?_eq_some_iff.1 h.here).1

theorem Twin.others (h : Twin place s u f g) {other : Nat} (hne : other ≠ place) :
    u.flights[other]? = s.flights[other]? := by
  rw [h.flights]
  exact List.getElem?_set_ne (Ne.symm hne)

theorem Twin.elsewhere (h : Twin place s u f g) (hne : e ≠ .step place) :
    Twin place (s.after e) (u.after e) f g := by
  have hlt := (List.getElem?_eq_some_iff.1 h.here).1
  cases e with
  | cluster e => exact ⟨congrArg (World.mapCluster (·.after e)) h.world, h.here, h.flights⟩
  | pass ticks => exact ⟨by simp [after, setNow, h.world], h.here, h.flights⟩
  | launch j =>
      refine ⟨h.world, (List.getElem?_append_left hlt).trans h.here, ?_⟩
      simp only [after, h.flights, h.world, List.set_append_left _ _ hlt]
  | step p =>
      have hp : p ≠ place := fun heq => hne (congrArg _ heq)
      have hsame := h.others hp
      cases hx : s.flights[p]? with
      | none => simpa only [after, hsame, hx] using h
      | some x =>
          rw [hx] at hsame
          rw [after_step hx, after_step hsame, h.world]
          refine ⟨rfl, (List.getElem?_set_ne hp).trans h.here, ?_⟩
          simp only [h.flights, List.set_comm _ _ hp]

theorem Twin.step (h : Twin place s u f g) {w : World} (hf : f.drive 1 s.world = (f', w))
    (hg : g.drive 1 s.world = (g', w)) :
    Twin place (s.after (.step place)) (u.after (.step place)) f' g' := by
  have hlt := (List.getElem?_eq_some_iff.1 h.here).1
  rw [after_step h.here, after_step h.there, h.world, hf, hg]
  refine ⟨rfl, List.getElem?_set_self hlt, ?_⟩
  simp only [h.flights, List.set_set]

theorem Twin.stage? (h : Twin place s u f g) (m : Nat) : u.stage? m = s.stage? m := by
  rw [Traffic.stage?, Traffic.stage?, h.world]

/-- The call has come as far in the one run as in the other, where it is not given a timeout up to
the tick `last`. -/
structure Abreast (place last : Nat) (i : Invocation) (limit : Duration) (s u : Traffic) : Prop where
  first : ∃ c, Steady s c
  second : ∃ d, Steady u d
  twin : ∃ ph ph', Twin place s u ⟨i, ph⟩ ⟨i.within limit, ph'⟩ ∧ ph.Alike ph' ∧ ph'.Outlasts last
  limit : last < limit.ticks

/-- The call has come to its timeout in the one run and waits for its task in the other, or the task
has come to the same end in both. -/
inductive Parted (place m last : Nat) (s u : Traffic) : Prop
  | waiting {i j : Invocation} {r : Except DispatchError Json} {tick n deadline : Nat} :
      Twin place s u ⟨i, .settled r tick⟩ ⟨j, .waiting n (.ofTask m) deadline⟩ →
      last < deadline → s.world.result? (.ofTask m) = none → Parted place m last s u
  | ended {x : CallResult} : s.world.result? (.ofTask m) = some x →
      u.world.result? (.ofTask m) = some x → u.stage? m = s.stage? m →
      u.world.now = s.world.now → Parted place m last s u

theorem Steady.abreast_launch (h : Steady t c) (hlimit : last < limit.ticks) :
    Abreast t.flights.length last i limit (t.after (.launch i))
      (t.after (.launch (i.within limit))) := by
  obtain ⟨c₁, -, h₁⟩ := h.after (.launch i)
  obtain ⟨c₂, -, h₂⟩ := h.after (.launch (i.within limit))
  have hphase : (Flight.launch (i.within limit) t.world.now).phase =
      (Flight.launch i t.world.now).phase := by
    unfold Flight.launch
    split <;> split <;> first | rfl | contradiction
  have htwin : Twin t.flights.length (t.after (.launch i)) (t.after (.launch (i.within limit)))
      ⟨i, (Flight.launch i t.world.now).phase⟩
      ⟨i.within limit, (Flight.launch i t.world.now).phase⟩ := by
    refine ⟨rfl, t.launched i, ?_⟩
    rw [← hphase, ← Flight.launch_eq]
    simp [Traffic.after]
  exact ⟨⟨c₁, h₁⟩, ⟨c₂, h₂⟩, ⟨_, _, htwin, .refl _, Phase.outlasts_launch _ i _⟩, hlimit⟩

theorem Abreast.after (h : Abreast place last i limit s u) (hnow : s.world.now ≤ last)
    (hopen : ∀ f, (s.after e).flights[place]? = some f → f.timedOut = false) :
    Abreast place last i limit (s.after e) (u.after e) := by
  obtain ⟨c, hs⟩ := h.first
  obtain ⟨d, hu⟩ := h.second
  obtain ⟨ph, ph', htwin, halike, hlasts⟩ := h.twin
  obtain ⟨c', -, hs'⟩ := hs.after e
  obtain ⟨d', -, hu'⟩ := hu.after e
  refine ⟨⟨c', hs'⟩, ⟨d', hu'⟩, ?_, h.limit⟩
  by_cases he : e = .step place
  · subst he
    rcases Flight.drive_alike i limit halike (hlasts.mono hnow) with
      ⟨q, q', w, hq, hf, hg⟩ | hout
    · have htwin' := htwin.step hf hg
      have hin : u.world.now ≤ last := htwin.world ▸ hnow
      obtain ⟨q'', hq'', hout⟩ := hu.outlasts_after htwin.there hlasts h.limit hin (.step place)
      cases htwin'.there.symm.trans hq''
      exact ⟨q, q', htwin', hq, hout⟩
    · have hlt := (List.getElem?_eq_some_iff.1 htwin.here).1
      rw [after_step htwin.here] at hopen
      rw [hopen _ (List.getElem?_set_self hlt)] at hout
      cases hout
  · exact ⟨ph, ph', htwin.elsewhere he, halike, hlasts⟩

theorem Abreast.afterAll (h : Abreast place last i limit s u)
    (hnow : (s.afterAll es).world.now ≤ last)
    (hopen : ∀ f, (s.afterAll es).flights[place]? = some f → f.timedOut = false) :
    Abreast place last i limit (s.afterAll es) (u.afterAll es) := by
  induction es generalizing s u with
  | nil => exact h
  | cons e es ih =>
      have hstart : s.world.now ≤ last := Nat.le_trans (s.now_le_afterAll (e :: es)) hnow
      obtain ⟨c, hs⟩ := h.first
      obtain ⟨c', -, hs'⟩ := hs.after e
      exact ih (h.after hstart fun f => hs'.open_of_open hopen) hnow hopen

theorem Abreast.open_afterAll (h : Abreast place last i limit s u)
    (hnow : (s.afterAll es).world.now ≤ last)
    (hf : (u.afterAll es).flights[place]? = some f) : f.timedOut = false := by
  obtain ⟨d, hu⟩ := h.second
  obtain ⟨ph, ph', htwin, -, hlasts⟩ := h.twin
  have hin : (u.afterAll es).world.now ≤ last := by
    rwa [now_afterAll, htwin.world, ← now_afterAll]
  obtain ⟨q, hq, hout⟩ := hu.outlasts_afterAll htwin.there hlasts h.limit hin
  cases hq.symm.trans hf
  exact hout.isOpen

theorem Parted.after (h : Parted place m last s u) (hs : Steady s c) (hu : Steady u d)
    (hnow : s.world.now ≤ last) (e : Event) : Parted place m last (s.after e) (u.after e) := by
  obtain ⟨c', he, hs'⟩ := hs.after e
  obtain ⟨d', he', hu'⟩ := hu.after e
  cases h with
  | @waiting i j r tick n deadline htwin hdeadline hopen =>
      have htwin' : Twin place (s.after e) (u.after e) ⟨i, .settled r tick⟩
          ⟨j, .waiting n (.ofTask m) deadline⟩ := by
        by_cases hstep : e = .step place
        · subst hstep
          exact htwin.step (Flight.drive_of_none (f := ⟨i, .settled r tick⟩) rfl 1)
            (Flight.drive_waiting hopen (Nat.lt_of_le_of_lt hnow hdeadline))
        · exact htwin.elsewhere hstep
      cases hr : (s.after e).world.result? (.ofTask m) with
      | none => exact .waiting htwin' hdeadline hr
      | some x => exact .ended hr (htwin'.world ▸ hr) (htwin'.stage? m) (congrArg _ htwin'.world)
  | ended hr hr' hstage hsame =>
      have hkept := hs.result_kept hs' (hs.keeps he) hr
      have hkept' := hu.result_kept hu' (hu.keeps he') hr'
      refine .ended hkept hkept' ?_ ?_
      · rw [hs.stage_kept hr e, hu.stage_kept hr' e, hstage]
      · rw [now_after, now_after, hsame]

theorem Parted.afterAll (h : Parted place m last s u) (hs : Steady s c) (hu : Steady u d)
    (hnow : (s.afterAll es).world.now ≤ last) :
    Parted place m last (s.afterAll es) (u.afterAll es) := by
  induction es generalizing s u c d with
  | nil => exact h
  | cons e es ih =>
      have hstart : s.world.now ≤ last := Nat.le_trans (s.now_le_afterAll (e :: es)) hnow
      obtain ⟨c', -, hs'⟩ := hs.after e
      obtain ⟨d', -, hu'⟩ := hu.after e
      exact ih (h.after hs hu hstart e) hs' hu' hnow

end Traffic

end Switchboard

import Switchboard.Dispatch.Traffic
import Switchboard.Proofs.Cluster.Progress
import Switchboard.Proofs.Dispatch.Preparation

namespace Switchboard

theorem Course.follow_follow (now : Nat) (due : Option Nat) (c : Course) :
    (c.follow now due).2.follow now (c.follow now due).1 = c.follow now due := by
  induction c generalizing due with
  | result r => rfl
  | never => rfl
  | delay ms next ih =>
      by_cases h : due.getD (now + ms) ≤ now
      · have hnext : (Course.delay ms next).follow now due = next.follow now none := by
          simp [follow, h]
        rw [hnext]
        exact ih none
      · simp [follow, h]

theorem Pending.follow_follow (now : Nat) (p : Pending) :
    (p.follow now).follow now = p.follow now := by
  obtain ⟨hold, hook⟩ := p
  cases hold with
  | task n => rfl
  | course due c => simp [follow, Course.follow_follow]

namespace World

theorem now_mapCluster (w : World) (g : Cluster → Cluster) : (w.mapCluster g).now = w.now := by
  unfold mapCluster
  split <;> rfl

theorem now_interrupt (w : World) (p : Pending) : (w.interrupt p).2.now = w.now := by
  unfold interrupt
  split
  · next h _ =>
      cases h with
      | count => rfl
      | abort n => exact now_mapCluster ..
  · rfl

end World

namespace Flight

theorem follow_follow (now : Nat) (ph : Phase) : follow now (follow now ph) = follow now ph := by
  cases ph with
  | waiting n p deadline => simp [follow, Pending.follow_follow]
  | _ => rfl

theorem drive_follow (fuel : Nat) (w : World) (f : Flight) :
    drive fuel w { f with phase := follow w.now f.phase } = drive fuel w f := by
  cases fuel <;> simp [drive, follow_follow]

theorem drive_of_none {w : World} {f : Flight}
    (h : step f.invocation w (follow w.now f.phase) = none) (fuel : Nat) :
    drive fuel w f = ({ f with phase := follow w.now f.phase }, w) := by
  cases fuel <;> simp [drive, h]

theorem drive_of_some {w w' : World} {f : Flight} {ph : Phase}
    (h : step f.invocation w (follow w.now f.phase) = some (ph, w')) (fuel : Nat) :
    drive (fuel + 1) w f = drive fuel w' { f with phase := ph } := by
  simp [drive, h]

theorem drive_one (w : World) (f : Flight) :
    (step f.invocation w (follow w.now f.phase) = none ∧
      f.drive 1 w = ({ f with phase := follow w.now f.phase }, w)) ∨
    ∃ ph w', step f.invocation w (follow w.now f.phase) = some (ph, w') ∧
      f.drive 1 w = ({ f with phase := follow w'.now ph }, w') := by
  cases hs : step f.invocation w (follow w.now f.phase) with
  | none => exact Or.inl ⟨rfl, drive_of_none hs 1⟩
  | some r => exact Or.inr ⟨r.1, r.2, rfl, drive_of_some hs 0⟩

inductive Goes (i : Invocation) (w : World) : Phase → Phase → World → Prop
  | unprepared {n : Nat} {e : DispatchError} : (i.prepare w).1 = .error e →
      Goes i w (.preparing n) (.settled (.error e) w.now) (i.prepare w).2
  | submit {n : Nat} {call : Call} {target : Option Member} :
      (i.prepare w).1 = .ok (call, target) →
      Goes i w (.preparing n)
        (.waiting n ((i.prepare w).2.submit call target).1 (w.now + i.route.timeout.ticks))
        ((i.prepare w).2.submit call target).2
  | conclude {n deadline : Nat} {p : Pending} {r : CallResult} : w.result? p = some r →
      Goes i w (.waiting n p deadline) (Flight.conclude i n w.now r) w
  | expire {n deadline : Nat} {p : Pending} : w.result? p = none → deadline ≤ w.now →
      Goes i w (.waiting n p deadline)
        (.settled (.error (.timeout i.qualified i.route.timeout)) w.now)
        (if i.route.interrupt then (w.interrupt p).2 else w)
  | wake {n wake : Nat} : wake ≤ w.now → Goes i w (.resting n wake) (.preparing (n + 1)) w

theorem goes_attempt (i : Invocation) (w : World) (n : Nat) :
    Goes i w (.preparing n) (attempt i n w).1 (attempt i n w).2 := by
  obtain ⟨cursors, consulted, hp⟩ := prepare_frame i w
  have hnow : (i.prepare w).2.now = w.now := by rw [hp]
  cases hprep : (i.prepare w).1 with
  | error e =>
      have hattempt : attempt i n w = (.settled (.error e) (i.prepare w).2.now,
          (i.prepare w).2) := by
        rw [attempt]
        split <;> simp_all
      rw [hattempt, hnow]
      exact .unprepared hprep
  | ok pair =>
      obtain ⟨call, target⟩ := pair
      have hattempt : attempt i n w =
          (.waiting n ((i.prepare w).2.submit call target).1
            ((i.prepare w).2.now + i.route.timeout.ticks),
            ((i.prepare w).2.submit call target).2) := by
        rw [attempt]
        split <;> simp_all [World.submit]
      rw [hattempt, hnow]
      exact .submit hprep

theorem goes_of_step {i : Invocation} {w w' : World} {ph ph' : Phase}
    (h : step i w ph = some (ph', w')) : Goes i w ph ph' w' := by
  cases ph with
  | preparing n =>
      have hattempt : attempt i n w = (ph', w') := Option.some.inj h
      have hgoes := goes_attempt i w n
      rwa [hattempt] at hgoes
  | waiting n p deadline =>
      simp only [step] at h
      split at h
      · next r hr =>
          cases h
          exact .conclude hr
      next hr =>
      split at h
      · next hd =>
          have hexpire : expire i p w = (ph', w') := Option.some.inj h
          have hgoes := Goes.expire (i := i) (n := n) hr hd
          have hnow : (if i.route.interrupt then (w.interrupt p).2 else w).now = w.now := by
            split
            · exact World.now_interrupt w p
            · rfl
          simp only [expire, hnow] at hexpire
          cases hexpire
          exact hgoes
      · cases h
  | resting n wake =>
      simp only [step] at h
      split at h
      · next hwake =>
          cases h
          exact .wake hwake
      · cases h
  | settled r tick => cases h

theorem Goes.now {i : Invocation} {w w' : World} {ph ph' : Phase} (h : Goes i w ph ph' w') :
    w'.now = w.now := by
  obtain ⟨cursors, consulted, hp⟩ := prepare_frame i w
  cases h with
  | unprepared _ => rw [hp]
  | submit _ => rw [hp]; rfl
  | expire _ _ =>
      split
      · exact World.now_interrupt ..
      · rfl
  | _ => rfl

theorem now_step {i : Invocation} {w w' : World} {ph ph' : Phase}
    (h : step i w ph = some (ph', w')) : w'.now = w.now := (goes_of_step h).now

theorem drive_goes (w : World) (f : Flight) :
    (step f.invocation w (follow w.now f.phase) = none ∧
      f.drive 1 w = ({ f with phase := follow w.now f.phase }, w)) ∨
    ∃ ph w', Goes f.invocation w (follow w.now f.phase) ph w' ∧
      f.drive 1 w = ({ f with phase := follow w'.now ph }, w') := by
  rcases drive_one w f with hidle | ⟨ph, w', hstep, hone⟩
  · exact Or.inl hidle
  · exact Or.inr ⟨ph, w', goes_of_step hstep, hone⟩

theorem now_drive (fuel : Nat) (w : World) (f : Flight) : (f.drive fuel w).2.now = w.now := by
  induction fuel generalizing w f with
  | zero => rfl
  | succ fuel ih =>
      cases hs : step f.invocation w (follow w.now f.phase) with
      | none => rw [drive_of_none hs]
      | some r => rw [drive_of_some hs, ih, now_step hs]

theorem invocation_drive (fuel : Nat) (w : World) (f : Flight) :
    (f.drive fuel w).1.invocation = f.invocation := by
  induction fuel generalizing w f with
  | zero => rfl
  | succ fuel ih =>
      cases hs : step f.invocation w (follow w.now f.phase) with
      | none => rw [drive_of_none hs]
      | some r => rw [drive_of_some hs, ih]

theorem launch_eq (i : Invocation) (now : Nat) : launch i now = ⟨i, (launch i now).phase⟩ := by
  unfold launch
  split <;> rfl

def handed? : Phase → Phase → Option Nat
  | .preparing _, .waiting _ ⟨.task n, _⟩ _ => some n
  | _, _ => none

theorem handed?_follow_left (now : Nat) (ph ph' : Phase) :
    handed? (follow now ph) ph' = handed? ph ph' := by
  cases ph <;> rfl

theorem handed?_follow_right (now : Nat) (ph ph' : Phase) :
    handed? ph (follow now ph') = handed? ph ph' := by
  cases ph' with
  | waiting n p deadline =>
      obtain ⟨hold, hook⟩ := p
      cases ph <;> cases hold <;> rfl
  | _ => rfl

theorem handed?_eq_some {ph ph' : Phase} {m : Nat} (h : handed? ph ph' = some m) :
    ∃ n k hook deadline, ph = .preparing n ∧ ph' = .waiting k ⟨.task m, hook⟩ deadline := by
  unfold handed? at h
  split at h
  · cases h
    exact ⟨_, _, _, _, rfl, rfl⟩
  · cases h

theorem handed?_self (ph : Phase) : handed? ph ph = none := by
  cases ph <;> rfl

end Flight

namespace Traffic

inductive Event where
  | cluster (e : Cluster.Event)
  | pass (ticks : Nat)
  | launch (i : Invocation)
  | step (place : Nat)

def after (t : Traffic) : Event → Traffic
  | .cluster e => { t with world := t.world.mapCluster (·.after e) }
  | .pass ticks => t.setNow (t.world.now + ticks)
  | .launch i => { t with flights := t.flights ++ [Flight.launch i t.world.now] }
  | .step place =>
      match t.flights[place]? with
      | none => t
      | some f => ⟨(f.drive 1 t.world).2, t.flights.set place (f.drive 1 t.world).1⟩

def afterAll (t : Traffic) (es : List Event) : Traffic := es.foldl after t

def signals (t : Traffic) : Event → List Signal
  | .cluster e => (t.world.cluster?.map (·.signals e)).getD []
  | .step place =>
      match t.flights[place]? with
      | none => []
      | some f => (Flight.handed? f.phase (f.drive 1 t.world).1.phase).toList.map (.sent place)
  | _ => []

def log (t : Traffic) : List Event → List Signal
  | [] => []
  | e :: es => t.signals e ++ (t.after e).log es

def Event.ticks : Event → Nat
  | .pass ticks => ticks
  | _ => 0

def elapsed : List Event → Nat
  | [] => 0
  | e :: es => e.ticks + elapsed es

theorem afterAll_append (t : Traffic) (es es' : List Event) :
    t.afterAll (es ++ es') = (t.afterAll es).afterAll es' := List.foldl_append

theorem after_step {t : Traffic} {place : Nat} {f : Flight} (hf : t.flights[place]? = some f) :
    t.after (.step place) =
      ⟨(f.drive 1 t.world).2, t.flights.set place (f.drive 1 t.world).1⟩ := by
  simp only [after, hf]

theorem signals_step {t : Traffic} {place : Nat} {f : Flight} (hf : t.flights[place]? = some f) :
    t.signals (.step place) =
      (Flight.handed? f.phase (f.drive 1 t.world).1.phase).toList.map (.sent place) := by
  simp only [signals, hf]

theorem signals_cluster {t : Traffic} {c : Cluster} (hs : t.world.substrate = .cluster c)
    (e : Cluster.Event) : t.signals (.cluster e) = c.signals e := by
  simp [signals, World.cluster?, hs]

theorem launched (t : Traffic) (i : Invocation) : (t.after (.launch i)).flights[t.flights.length]? =
    some ⟨i, (Flight.launch i t.world.now).phase⟩ := by
  rw [← Flight.launch_eq]
  simp [after]

theorem log_append (t : Traffic) (es es' : List Event) :
    t.log (es ++ es') = t.log es ++ (t.afterAll es).log es' := by
  induction es generalizing t with
  | nil => rfl
  | cons e es ih =>
      rw [List.cons_append, log, log, ih, List.append_assoc]
      rfl

theorem now_after (t : Traffic) (e : Event) : (t.after e).world.now = t.world.now + e.ticks := by
  cases e with
  | cluster e => exact World.now_mapCluster ..
  | pass ticks => rfl
  | launch i => rfl
  | step place =>
      simp only [after]
      split
      · rfl
      · exact Flight.now_drive ..

theorem now_afterAll (t : Traffic) (es : List Event) :
    (t.afterAll es).world.now = t.world.now + elapsed es := by
  induction es generalizing t with
  | nil => rfl
  | cons e es ih =>
      rw [elapsed, ← Nat.add_assoc, ← now_after]
      exact ih (t.after e)

theorem now_le_afterAll (t : Traffic) (es : List Event) :
    t.world.now ≤ (t.afterAll es).world.now := by
  rw [now_afterAll]
  exact Nat.le_add_right ..

theorem now_le_of_prefix (t : Traffic) {es es' : List Event} (h : es <+: es') :
    (t.afterAll es).world.now ≤ (t.afterAll es').world.now := by
  obtain ⟨rest, rfl⟩ := h
  rw [afterAll_append]
  exact now_le_afterAll ..

def Reaches (t t' : Traffic) : Prop := ∃ es, t.afterAll es = t'

variable {t t' t'' : Traffic}

theorem Reaches.refl (t : Traffic) : Reaches t t := ⟨[], rfl⟩

theorem Reaches.event (t : Traffic) (e : Event) : Reaches t (t.after e) := ⟨[e], rfl⟩

theorem Reaches.trans (h : Reaches t t') (h' : Reaches t' t'') : Reaches t t'' := by
  obtain ⟨es, rfl⟩ := h
  obtain ⟨es', rfl⟩ := h'
  exact ⟨es ++ es', List.foldl_append⟩

theorem reaches_drive (fuel : Nat) {w : World} {fs : List Flight} {place : Nat} {f : Flight}
    (hf : fs[place]? = some f) :
    Reaches ⟨w, fs⟩ ⟨(f.drive (fuel + 1) w).2, fs.set place (f.drive (fuel + 1) w).1⟩ := by
  induction fuel generalizing w fs f with
  | zero =>
      have h := Reaches.event ⟨w, fs⟩ (.step place)
      simpa only [after, hf] using h
  | succ fuel ih =>
      have h := Reaches.event ⟨w, fs⟩ (.step place)
      simp only [after, hf] at h
      cases hs : Flight.step f.invocation w (Flight.follow w.now f.phase) with
      | none =>
          rw [Flight.drive_of_none hs] at h ⊢
          exact h
      | some r =>
          obtain ⟨ph, w'⟩ := r
          have hone : f.drive 1 w = ({ f with phase := Flight.follow w'.now ph }, w') := by
            rw [Flight.drive_of_some hs]
            rfl
          rw [hone] at h
          have hlt := (List.getElem?_eq_some_iff.1 hf).1
          have hrest := ih (w := w')
            (List.getElem?_set_self (a := { f with phase := Flight.follow w'.now ph }) hlt)
          rw [List.set_set] at hrest
          rw [Flight.drive_of_some hs, ← Flight.drive_follow (fuel + 1) w' { f with phase := ph }]
          exact h.trans hrest

theorem reaches_driveFuel {w : World} {fs : List Flight} {place : Nat} {f : Flight}
    (hf : fs[place]? = some f) :
    Reaches ⟨w, fs⟩
      ⟨(f.drive (driveFuel w) w).2, fs.set place (f.drive (driveFuel w) w).1⟩ := by
  have hfuel : driveFuel w = 3 * w.script.length + 5 + 1 := by
    simp only [driveFuel]
    omega
  rw [hfuel]
  exact reaches_drive _ hf

theorem reaches_launch (t : Traffic) (i : Invocation) : Reaches t (t.launch i).2 := by
  refine (Reaches.event t (.launch i)).trans ?_
  have hget : (t.flights ++ [Flight.launch i t.world.now])[t.flights.length]? =
      some (Flight.launch i t.world.now) := by simp
  have hdrive := reaches_driveFuel (w := t.world) hget
  rw [List.set_append_right _ _ (Nat.le_refl _), Nat.sub_self, List.set_cons_zero] at hdrive
  exact hdrive

theorem reaches_driveAll (w : World) (before fs : List Flight) :
    Reaches ⟨w, before ++ fs⟩ ⟨(driveAll w fs).2, before ++ (driveAll w fs).1⟩ := by
  induction fs generalizing w before with
  | nil => exact .refl _
  | cons f fs ih =>
      have hget : (before ++ f :: fs)[before.length]? = some f := by simp
      have hdrive := reaches_driveFuel (w := w) hget
      have hset : (before ++ f :: fs).set before.length (f.drive (driveFuel w) w).1 =
          (before ++ [(f.drive (driveFuel w) w).1]) ++ fs := by simp
      rw [hset] at hdrive
      have hrest := ih (f.drive (driveFuel w) w).2 (before ++ [(f.drive (driveFuel w) w).1])
      have hall := hdrive.trans hrest
      rwa [List.append_assoc] at hall

theorem reaches_runs (t : Traffic) (now : Nat) (ns : List Nat) :
    Reaches t
      { t with world := t.world.mapCluster fun c => ns.foldl (Cluster.runTaskAt now) c } := by
  induction ns generalizing t with
  | nil =>
      have hstill : t.world.mapCluster (fun c => c) = t.world := by
        obtain ⟨⟨_, s, _, _, _, _⟩, _⟩ := t
        cases s <;> rfl
      change Reaches t { t with world := t.world.mapCluster fun c => c }
      rw [hstill]
      exact .refl t
  | cons n ns ih =>
      refine (Reaches.event t (.cluster (.run now n))).trans ?_
      have hrest := ih (t.after (.cluster (.run now n)))
      cases hs : t.world.substrate <;>
        simpa [after, World.mapCluster, hs, Cluster.after] using hrest

theorem reaches_round (t : Traffic) : Reaches t t.round := by
  have hready : Reaches t { t with world := t.world.runReady } := by
    cases hs : t.world.substrate with
    | scripted r script =>
        have hstill : t.world.runReady = t.world := by simp [World.runReady, World.mapCluster, hs]
        rw [hstill]
        exact .refl t
    | cluster c =>
        have hruns := reaches_runs t t.world.now (List.range c.tasks.length)
        simpa [World.runReady, World.mapCluster, hs, Cluster.runReady] using hruns
  exact hready.trans (reaches_driveAll t.world.runReady [] t.flights)

theorem reaches_settleWithin (fuel : Nat) (t : Traffic) : Reaches t (t.settleWithin fuel) := by
  induction fuel generalizing t with
  | zero => exact .refl t
  | succ fuel ih =>
      simp only [settleWithin]
      split
      · exact (reaches_round t).trans (ih t.round)
      · exact reaches_round t

theorem reaches_settle (t : Traffic) : Reaches t t.settle := reaches_settleWithin _ t

theorem reaches_setNow {now : Nat} (h : t.world.now ≤ now) : Reaches t (t.setNow now) := by
  have hpass := Reaches.event t (.pass (now - t.world.now))
  rw [after, Nat.add_sub_of_le h] at hpass
  exact hpass

theorem now_driveAll (w : World) (fs : List Flight) : (driveAll w fs).2.now = w.now := by
  induction fs generalizing w with
  | nil => rfl
  | cons f fs ih =>
      have hrest := ih (f.drive (driveFuel w) w).2
      rwa [Flight.now_drive] at hrest

theorem now_round (t : Traffic) : t.round.world.now = t.world.now :=
  (now_driveAll ..).trans (World.now_mapCluster ..)

theorem now_settleWithin (fuel : Nat) (t : Traffic) :
    (t.settleWithin fuel).world.now = t.world.now := by
  induction fuel generalizing t with
  | zero => rfl
  | succ fuel ih =>
      simp only [settleWithin]
      split
      · exact (ih t.round).trans (now_round t)
      · exact now_round t

theorem now_settle (t : Traffic) : t.settle.world.now = t.world.now := now_settleWithin _ t

theorem now_lt_of_next? {tick : Nat} (h : t.next? = some tick) : t.world.now < tick := by
  have hmem := List.min?_mem h
  simpa using (List.mem_filter.1 hmem).2

theorem reaches_advanceWithin (fuel : Nat) {target : Nat} (h : t.world.now ≤ target) :
    Reaches t (advanceWithin fuel target t) := by
  induction fuel generalizing t with
  | zero => exact reaches_setNow h
  | succ fuel ih =>
      have hend : Reaches t (t.settle.setNow target) :=
        (reaches_settle t).trans (reaches_setNow (now_settle t ▸ h))
      simp only [advanceWithin]
      split
      · next tick hnext =>
          split
          · next htick =>
              have hjump : Reaches t (t.settle.setNow tick) :=
                (reaches_settle t).trans (reaches_setNow (Nat.le_of_lt (now_lt_of_next? hnext)))
              exact hjump.trans (ih htick)
          · exact hend
      · exact hend

theorem reaches_advanceTo (t : Traffic) (target : Nat) : Reaches t (t.advanceTo target) := by
  unfold advanceTo
  split
  · exact .refl t
  · next h => exact reaches_advanceWithin _ (by omega)

end Traffic

end Switchboard

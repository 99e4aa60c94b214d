import Switchboard.Proofs.Dispatch.Movement

namespace Switchboard

namespace World

def Evolves (w w' : World) : Prop :=
  match w.substrate, w'.substrate with
  | .scripted _ _, .scripted _ _ => True
  | .cluster c, .cluster c' => c.tasks.length ≤ c'.tasks.length
  | _, _ => False

def stage? (w : World) (n : Nat) : Option Stage := w.cluster?.bind (·.stage? n)

def isAborted (w : World) (n : Nat) : Bool :=
  match w.stage? n with
  | some .aborted => true
  | _ => false

def taskCount (w : World) : Nat := (w.cluster?.map (·.tasks.length)).getD 0

/-- The hooks whose effects are seen: counts that have gone up, and tasks that have been aborted. -/
def interruptions (w w' : World) : List Interrupt :=
  List.replicate (w'.interrupted - w.interrupted) .count ++
    ((List.range w'.taskCount).filter fun n => w'.isAborted n && !w.isAborted n).map .abort

variable {w w' : World}

theorem evolves_of_eq (h : w'.substrate = w.substrate) : w.Evolves w' := by
  unfold Evolves
  rw [h]
  cases w.substrate with
  | scripted r script => trivial
  | cluster c => exact Nat.le_refl _

theorem Evolves.refl (w : World) : w.Evolves w := evolves_of_eq rfl

theorem Evolves.trans {w'' : World} (h : w.Evolves w') (h' : w'.Evolves w'') : w.Evolves w'' := by
  unfold Evolves at *
  cases hs : w.substrate <;> cases hs' : w'.substrate <;> cases hs'' : w''.substrate <;>
    simp only [hs, hs', hs''] at h h' ⊢
  exact Nat.le_trans h h'

end World

theorem Cluster.length_tasks_after (c : Cluster) (e : Cluster.Event) :
    c.tasks.length ≤ (c.after e).tasks.length := by
  obtain ⟨rest, hrest⟩ := Cluster.tickets_afterAll c [e]
  have hlength := congrArg List.length hrest
  simp only [Cluster.tickets, List.length_append, List.length_map] at hlength
  exact Nat.le.intro hlength

theorem World.evolves_mapCluster (w : World) {g : Cluster → Cluster}
    (h : ∀ c, c.tasks.length ≤ (g c).tasks.length) : w.Evolves (w.mapCluster g) := by
  unfold World.Evolves World.mapCluster
  cases hs : w.substrate with
  | scripted r script => simp [hs]
  | cluster c => exact h c

namespace World

variable {w : World}

theorem evolves_interrupt (w : World) (p : Pending) : w.Evolves (w.interrupt p).2 := by
  unfold interrupt
  split
  · next h _ =>
      cases h with
      | count => exact evolves_of_eq rfl
      | abort n => exact w.evolves_mapCluster fun c => c.length_tasks_after (.abort n)
  · exact .refl w

theorem evolves_submit (w : World) (call : Call) (target : Option Member) :
    w.Evolves (w.submit call target).2 := by
  unfold Evolves submit
  cases hs : w.substrate with
  | scripted r script => cases script <;> trivial
  | cluster c =>
      rw [place_cluster]
      exact c.length_tasks_after (.submit call target)

end World

variable {i : Invocation} {w w' : World} {ph ph' : Phase} {f : Flight}

namespace Flight

theorem Goes.evolves (h : Goes i w ph ph' w') : w.Evolves w' := by
  obtain ⟨cursors, consulted, hp⟩ := prepare_frame i w
  have hprepared : w.Evolves (i.prepare w).2 := World.evolves_of_eq (by rw [hp])
  cases h with
  | unprepared _ => exact hprepared
  | submit _ => exact hprepared.trans (World.evolves_submit ..)
  | expire _ _ =>
      split
      · exact w.evolves_interrupt _
      · exact .refl w
  | _ => exact .refl w

theorem evolves_drive (w : World) (f : Flight) : w.Evolves (f.drive 1 w).2 := by
  rcases drive_goes w f with ⟨-, hone⟩ | ⟨ph, w', hgoes, hone⟩
  · rw [hone]
    exact .refl w
  · rw [hone]
    exact hgoes.evolves

def obtained? : Phase → Phase → Option Pending
  | .preparing _, .waiting _ p _ => some p
  | _, _ => none

def awaited? : Phase → Option Nat
  | .waiting n _ _ => some n
  | _ => none

def answered? (w : World) : Phase → Option Nat
  | .waiting n p _ => (w.result? p).map fun _ => n
  | _ => none

end Flight

/-- What is seen of a call: the pending calls that it obtains, the attempts that come to a result,
and the hooks that run, each with the attempt that is waited for. -/
structure Diary where
  obtained : List Pending := []
  answered : List Nat := []
  hooks : List (Option Nat × Interrupt) := []

def Diary.add (d : Diary) (w w' : World) (ph ph' : Phase) : Diary where
  obtained := d.obtained ++ (Flight.obtained? ph ph').toList
  answered := d.answered ++ (Flight.answered? w ph).toList
  hooks := d.hooks ++ (w.interruptions w').map (Flight.awaited? ph, ·)

inductive Passage (i : Invocation) : World → Flight → Diary → Prop
  | launch (w : World) : Passage i w (.launch i w.now) {}
  | elsewhere {w w' : World} {f : Flight} {d : Diary} :
      Passage i w f d → w.Evolves w' → Passage i w' f d
  | step {w : World} {f : Flight} {d : Diary} :
      Passage i w f d → Passage i (f.drive 1 w).2 (f.drive 1 w).1
        (d.add w (f.drive 1 w).2 (Flight.follow w.now f.phase) (f.drive 1 w).1.phase)

theorem Passage.later {d : Diary} (h : Passage i w f d) (ticks : Nat) :
    Passage i { w with now := w.now + ticks } f d := h.elsewhere (World.evolves_of_eq rfl)

theorem Passage.invocation {d : Diary} (h : Passage i w f d) : f.invocation = i := by
  induction h with
  | launch w => rw [Flight.launch_eq]
  | elsewhere _ _ ih => exact ih
  | step _ ih => rw [Flight.invocation_drive, ih]

theorem Passage.drive {d : Diary} (h : Passage i w f d) (fuel : Nat) :
    ∃ d', Passage i (f.drive (fuel + 1) w).2 (f.drive (fuel + 1) w).1 d' := by
  induction fuel generalizing w f d with
  | zero => exact ⟨_, h.step⟩
  | succ fuel ih =>
      have hstep := h.step
      cases hs : Flight.step f.invocation w (Flight.follow w.now f.phase) with
      | none =>
          rw [Flight.drive_of_none hs] at hstep ⊢
          exact ⟨_, hstep⟩
      | some r =>
          obtain ⟨ph, w'⟩ := r
          rw [Flight.drive_of_some hs, Flight.drive] at hstep
          rw [Flight.drive_of_some hs, ← Flight.drive_follow (fuel + 1) w' { f with phase := ph }]
          exact ih hstep

theorem Passage.invariant {d : Diary} {P : Phase → Prop} (h : Passage i w f d)
    (hlaunch : ∀ now, P (Flight.launch i now).phase)
    (hfollow : ∀ now ph, P ph → P (Flight.follow now ph))
    (hstep : ∀ {w w' ph ph'}, P ph → Flight.Goes i w ph ph' w' → P ph') : P f.phase := by
  induction h with
  | launch w => exact hlaunch w.now
  | elsewhere _ _ ih => exact ih
  | @step w f d hpassage ih =>
      rcases Flight.drive_goes w f with ⟨-, hone⟩ | ⟨ph, w', hgoes, hone⟩
      · rw [hone]
        exact hfollow _ _ ih
      · rw [hpassage.invocation] at hgoes
        rw [hone]
        exact hfollow _ _ (hstep (hfollow _ _ ih) hgoes)

namespace Traffic

variable {t : Traffic} {place : Nat}

theorem evolves_after (t : Traffic) (e : Event) : t.world.Evolves (t.after e).world := by
  cases e with
  | cluster e => exact t.world.evolves_mapCluster fun c => c.length_tasks_after e
  | pass ticks => exact World.evolves_of_eq rfl
  | launch i => exact .refl _
  | step place =>
      simp only [after]
      split
      · exact .refl _
      · exact Flight.evolves_drive ..

theorem passage_after {d : Diary} (hf : t.flights[place]? = some f) (h : Passage i t.world f d)
    (e : Event) : ∃ f' d', (t.after e).flights[place]? = some f' ∧
      Passage i (t.after e).world f' d' := by
  have hlt := (List.getElem?_eq_some_iff.1 hf).1
  have hmoved := h.elsewhere (t.evolves_after e)
  cases e with
  | cluster e => exact ⟨f, d, hf, hmoved⟩
  | pass ticks => exact ⟨f, d, hf, hmoved⟩
  | launch j => exact ⟨f, d, by rw [after, List.getElem?_append_left hlt, hf], hmoved⟩
  | step p =>
      by_cases hp : p = place
      · subst hp
        simp only [after, hf]
        exact ⟨_, _, List.getElem?_set_self hlt, h.step⟩
      · refine ⟨f, d, ?_, hmoved⟩
        simp only [after]
        split
        · exact hf
        · exact (List.getElem?_set_ne hp).trans hf

theorem passage_afterAll {d : Diary} (hf : t.flights[place]? = some f)
    (h : Passage i t.world f d) (es : List Event) :
    ∃ f' d', (t.afterAll es).flights[place]? = some f' ∧
      Passage i (t.afterAll es).world f' d' := by
  induction es generalizing t f d with
  | nil => exact ⟨f, d, hf, h⟩
  | cons e es ih =>
      obtain ⟨f', d', hf', h'⟩ := passage_after hf h e
      exact ih hf' h'

theorem passage_launch (t : Traffic) (i : Invocation) :
    ∃ f d, (t.launch i).2.flights[t.flights.length]? = some f ∧
      Passage i (t.launch i).2.world f d := by
  have hfuel : driveFuel t.world = 3 * t.world.script.length + 5 + 1 := by
    simp only [driveFuel]
    omega
  obtain ⟨d, hd⟩ := (Passage.launch (i := i) t.world).drive (3 * t.world.script.length + 5)
  rw [← hfuel] at hd
  exact ⟨_, d, by simp [launch], hd⟩

end Traffic

end Switchboard

import Switchboard.Proofs.Dispatch.Selection
import Switchboard.Proofs.Dispatch.Turns
import Switchboard.Proofs.Interface.KeySource

namespace Switchboard

structure Entry where
  phase : Phase
  before : World
  after : World

namespace Entry

def begins (e : Entry) : Bool :=
  match e.phase with
  | .preparing _ => true
  | _ => false

def submitted (e : Entry) : List Submission :=
  e.after.submissions.drop e.before.submissions.length

def consulted (e : Entry) : Nat := e.after.consulted - e.before.consulted

end Entry

namespace Flight

def entry (f : Flight) (w : World) : Entry := ⟨f.phase, w, (f.drive 1 w).2⟩

def journal : Flight → List World → List Entry
  | _, [] => []
  | f, w :: ws => f.entry w :: (f.drive 1 w).1.journal ws

def through : Flight → List World → Flight
  | f, [] => f
  | f, w :: ws => (f.drive 1 w).1.through ws

def submissions (f : Flight) (ws : List World) : List Submission :=
  (f.journal ws).flatMap Entry.submitted

end Flight

structure Submission.Renders (i : Invocation) (w w' : World) (s : Submission) : Prop where
  slice : s.call.slice = i.slice
  service : s.call.service = i.service
  method : s.call.method = i.route.signature.name
  argTypes : s.call.argTypes = i.route.signature.paramTypes
  args : s.call.args = i.args
  partitioned : ∀ spec, i.route.target = .partitioned spec →
    s.target = none ∧ ∃ k, s.call.key = some k ∧ (spec.resolve i.qualified i.args).1 = .ok k
  balanced : ∀ p, i.route.target = .balanced p →
    s.call.key = none ∧ ∃ m, s.target = some m ∧
      p.choose w.alive i.call (w.cursors.get i.policy) = (.ok m, w'.cursors.get i.policy)
  present : i.route.ByPlace → ∀ m, s.target = some m → m ∈ w.alive ∧ m.lite = false

variable {i : Invocation} {w w' : World} {ph ph' : Phase} {f : Flight} {e : Entry} {n tick : Nat}
  {spec : KeySpec} {x : CallerError} {call : Call} {target : Option Member} {s s' : Submission}

namespace Invocation

theorem renders_prepare (h : (i.prepare w).1 = .ok (call, target))
    (hw : w'.cursors = (i.prepare w).2.cursors) : Submission.Renders i w w' ⟨call, target⟩ := by
  have hprep := i.prepares w
  generalize i.prepare w = out at h hw hprep
  cases hprep with
  | @keyed spec k ran htarget hkey =>
      cases h
      refine ⟨rfl, rfl, rfl, rfl, rfl, fun spec' hs => ?_, fun p hp => ?_, fun _ => nofun⟩
      · cases htarget.symm.trans hs
        exact ⟨rfl, k, rfl, congrArg Prod.fst hkey⟩
      · cases htarget.symm.trans hp
  | @targeted p m cursor htarget hchoice =>
      cases h
      refine ⟨rfl, rfl, rfl, rfl, rfl, fun spec hs => ?_, fun p' hp => ?_, ?_⟩
      · cases htarget.symm.trans hs
      · cases htarget.symm.trans hp
        exact ⟨rfl, m, rfl, by rw [hchoice, hw, Cursors.get_set_self]⟩
      · rintro hstd m' ⟨⟩
        exact mem_dataMembers.1 (hstd.chosen htarget (congrArg Prod.fst hchoice))
  | _ => cases h

def Hopeless (i : Invocation) : Prop := ∀ w, ∃ e, (i.prepare w).1 = .error e

theorem hopeless_of_caller (h : (i.prepare w).1 = .error (.caller x)) : i.Hopeless := by
  have hprep := i.prepares w
  generalize i.prepare w = out at h hprep
  cases hprep with
  | keyless htarget hkey =>
      intro w'
      have hprep' := i.prepares w'
      generalize i.prepare w' = out' at hprep'
      cases hprep' with
      | keyed htarget' hkey' =>
          cases htarget.symm.trans htarget'
          cases hkey.symm.trans hkey'
      | targeted htarget' _ => cases htarget.symm.trans htarget'
      | keyless _ _ | targetless _ _ => exact ⟨_, rfl⟩
  | _ => cases h

theorem consulted_prepare (h : i.route.target = .partitioned spec) (w : World) :
    (i.prepare w).2.consulted =
      w.consulted + (spec.resolve i.qualified i.args).2.length := by
  have hprep := i.prepares w
  generalize i.prepare w = out at hprep
  cases hprep with
  | keyed htarget hkey | keyless htarget hkey =>
      cases h.symm.trans htarget
      rw [hkey]
  | targeted htarget _ | targetless htarget _ => cases h.symm.trans htarget

end Invocation

theorem World.interrupt_frame (w : World) (p : Pending) :
    (w.interrupt p).2.submissions = w.submissions ∧ (w.interrupt p).2.consulted = w.consulted := by
  unfold interrupt
  split
  · next h _ =>
      cases h with
      | count => exact ⟨rfl, rfl⟩
      | abort n =>
          simp only [runHook, mapCluster]
          split <;> exact ⟨rfl, rfl⟩
  · exact ⟨rfl, rfl⟩

namespace Flight

theorem Goes.quiet (h : Goes i w ph ph' w') (hph : ∀ n, ph ≠ .preparing n) :
    w'.submissions = w.submissions ∧ w'.consulted = w.consulted := by
  cases h with
  | unprepared _ | submit _ => exact absurd rfl (hph _)
  | expire _ _ =>
      split
      · exact World.interrupt_frame ..
      · exact ⟨rfl, rfl⟩
  | _ => exact ⟨rfl, rfl⟩

theorem follow_eq_preparing {now : Nat} : follow now ph = .preparing n ↔ ph = .preparing n := by
  cases ph <;> simp [follow]

theorem follow_eq_settled {now : Nat} {r : Except DispatchError Json} :
    follow now ph = .settled r tick ↔ ph = .settled r tick := by
  cases ph <;> simp [follow]

end Flight

inductive Entry.Lawful (i : Invocation) (e : Entry) : Prop
  | quiet : e.begins = false → e.submitted = [] → e.consulted = 0 → Lawful i e
  | refused {x : DispatchError} : e.begins = true → (i.prepare e.before).1 = .error x →
      e.submitted = [] → e.after.consulted = (i.prepare e.before).2.consulted → Lawful i e
  | submits {call : Call} {target : Option Member} : e.begins = true →
      (i.prepare e.before).1 = .ok (call, target) → e.submitted = [⟨call, target⟩] →
      e.after.consulted = (i.prepare e.before).2.consulted →
      e.after.cursors = (i.prepare e.before).2.cursors → Lawful i e

namespace Flight

theorem lawful_entry (f : Flight) (w : World) : (f.entry w).Lawful f.invocation := by
  cases hph : f.phase with
  | preparing n =>
      have hbegins : (f.entry w).begins = true := by rw [Entry.begins, entry, hph]
      have hafter : (f.entry w).after = (attempt f.invocation n w).2 := drive_preparing hph w
      obtain ⟨ph', w', hattempt⟩ : ∃ ph' w', attempt f.invocation n w = (ph', w') := ⟨_, _, rfl⟩
      obtain ⟨cursors, consulted, hframe⟩ := prepare_frame f.invocation w
      have hgoes := goes_attempt f.invocation w n
      rw [hattempt] at hafter hgoes
      cases hgoes with
      | unprepared hprep =>
          refine .refused hbegins hprep ?_ (by rw [hafter]; rfl)
          rw [Entry.submitted, hafter, hframe]
          exact List.drop_length
      | submit hprep =>
          refine .submits hbegins hprep ?_ (by rw [hafter]; rfl) (by rw [hafter]; rfl)
          rw [Entry.submitted, hafter, hframe]
          exact List.drop_left
  | _ =>
      have hbegins : (f.entry w).begins = false := by rw [Entry.begins, entry, hph]
      rcases drive_goes w f with ⟨-, hone⟩ | ⟨ph, w', hgoes, hone⟩
      · exact .quiet hbegins (by simp [Entry.submitted, entry, hone])
          (by simp [Entry.consulted, entry, hone])
      · obtain ⟨hsubmissions, hconsulted⟩ :=
          hgoes.quiet fun n hn => by simp [follow_eq_preparing, hph] at hn
        exact .quiet hbegins (by simp [Entry.submitted, entry, hone, hsubmissions])
          (by simp [Entry.consulted, entry, hone, hconsulted])

theorem lawful_journal {ws : List World} (he : e ∈ f.journal ws) : e.Lawful f.invocation := by
  induction ws generalizing f with
  | nil => cases he
  | cons w ws ih =>
      rcases List.mem_cons.1 he with rfl | he
      · exact f.lawful_entry w
      · exact f.invocation_drive 1 w ▸ ih he

end Flight

namespace Entry

theorem Lawful.renders (h : e.Lawful i) :
    (e.submitted = [] ∧ (e.begins = true → ∃ x, (i.prepare e.before).1 = .error x)) ∨
      e.begins = true ∧ ∃ s, e.submitted = [s] ∧ s.Renders i e.before e.after := by
  cases h with
  | quiet hbegins hnone _ =>
      refine Or.inl ⟨hnone, fun hb => ?_⟩
      rw [hbegins] at hb
      cases hb
  | refused _ hprep hnone _ => exact Or.inl ⟨hnone, fun _ => ⟨_, hprep⟩⟩
  | submits hbegins hprep hone _ hcursors =>
      exact Or.inr ⟨hbegins, _, hone, Invocation.renders_prepare hprep hcursors⟩

theorem Lawful.consulted (h : e.Lawful i) (hs : i.route.target = .partitioned spec) :
    e.consulted = if e.begins then (spec.resolve i.qualified i.args).2.length else 0 := by
  cases h with
  | quiet hbegins _ hconsulted => rw [hconsulted, hbegins, if_neg Bool.false_ne_true]
  | refused hbegins _ _ hconsulted | submits hbegins _ _ hconsulted =>
      rw [Entry.consulted, hconsulted, hbegins, Invocation.consulted_prepare hs, if_pos rfl,
        Nat.add_sub_cancel_left]

theorem Lawful.hopeless (h : e.Lawful i) (hi : i.Hopeless) : e.submitted = [] := by
  cases h with
  | quiet _ hnone _ | refused _ _ hnone _ => exact hnone
  | submits _ hprep _ _ _ =>
      obtain ⟨x, hx⟩ := hi e.before
      cases hx.symm.trans hprep

end Entry

namespace Submission

theorem Renders.eq (h : s.Renders i w w') : s = ⟨{ i.call with key := s.call.key }, s.target⟩ := by
  obtain ⟨⟨slice, service, method, argTypes, args, key⟩, target⟩ := s
  obtain ⟨rfl, rfl, rfl, rfl, rfl, -, -, -⟩ := h
  rfl

theorem Renders.unique {v v' : World} (h : s.Renders i w w') (h' : s'.Renders i v v')
    (hs : i.route.target = .partitioned spec) : s = s' := by
  obtain ⟨htarget, k, hkey, hk⟩ := h.partitioned spec hs
  obtain ⟨htarget', k', hkey', hk'⟩ := h'.partitioned spec hs
  obtain rfl : k = k' := Except.ok.inj (hk.symm.trans hk')
  rw [h.eq, h'.eq, htarget, htarget', hkey, hkey']

end Submission

namespace Flight

theorem mem_submissions {ws : List World} (h : s ∈ f.submissions ws) :
    ∃ e ∈ f.journal ws, e.submitted = [s] ∧ s.Renders f.invocation e.before e.after := by
  obtain ⟨e, he, hs⟩ := List.mem_flatMap.1 h
  rcases (lawful_journal he).renders with ⟨hnone, -⟩ | ⟨-, s', hsub, hrenders⟩
  · rw [hnone] at hs
    cases hs
  · rw [hsub] at hs
    cases List.mem_singleton.1 hs
    exact ⟨e, he, hsub, hrenders⟩

theorem submissions_hopeless (h : f.invocation.Hopeless) (ws : List World) :
    f.submissions ws = [] :=
  List.flatMap_eq_nil_iff.2 fun _ he => (lawful_journal he).hopeless h

theorem drive_settled {r : Except DispatchError Json} (h : f.phase = .settled r tick) (w : World) :
    f.drive 1 w = (f, w) := by
  obtain ⟨i, ph⟩ := f
  cases h
  rfl

theorem submissions_settled {r : Except DispatchError Json} (h : f.phase = .settled r tick)
    (ws : List World) : f.submissions ws = [] := by
  induction ws with
  | nil => rfl
  | cons w ws ih =>
      have hentry : (f.entry w).submitted = [] := by
        rw [Entry.submitted, entry, drive_settled h, List.drop_length]
      rw [submissions, journal, List.flatMap_cons, hentry, drive_settled h]
      exact ih

theorem Goes.hopeless (h : Goes i w ph ph' w') (hph : ph' = .settled (.error (.caller x)) tick) :
    i.Hopeless := by
  cases h with
  | unprepared hprep =>
      cases hph
      exact Invocation.hopeless_of_caller hprep
  | @conclude n deadline p r hr =>
      rcases conclude_cases i n w.now r with hc | ⟨-, hc⟩
      · rw [hc, Phase.settled.injEq] at hph
        cases r with
        | ok v => cases hph.1
        | error e => cases e <;> cases hph.1
      · rw [hc] at hph
        cases hph
  | _ => cases hph

theorem hopeless_of_through (ws : List World)
    (h : (f.through ws).phase = .settled (.error (.caller x)) tick) :
    f.phase = .settled (.error (.caller x)) tick ∨ f.invocation.Hopeless := by
  -- The key does not depend on the world, so one failure to take it stands for all attempts.
  induction ws generalizing f with
  | nil => exact Or.inl h
  | cons w ws ih =>
      rcases ih h with hsettled | hhopeless
      · rcases drive_goes w f with ⟨-, hone⟩ | ⟨ph, w', hgoes, hone⟩
        · rw [hone] at hsettled
          exact Or.inl (follow_eq_settled.1 hsettled)
        · rw [hone] at hsettled
          exact Or.inr (hgoes.hopeless (follow_eq_settled.1 hsettled))
      · rw [invocation_drive] at hhopeless
        exact Or.inr hhopeless

theorem submissions_of_caller {ws : List World}
    (h : (f.through ws).phase = .settled (.error (.caller x)) tick) : f.submissions ws = [] := by
  rcases hopeless_of_through ws h with hsettled | hhopeless
  · exact submissions_settled hsettled ws
  · exact submissions_hopeless hhopeless ws

end Flight

namespace Traffic

variable {t : Traffic} {place : Nat}

theorem exists_journal (hf : t.flights[place]? = some f) (es : List Event) :
    ∃ ws, t.submittedBy place es = f.submissions ws ∧
      (t.afterAll es).flights[place]? = some (f.through ws) := by
  induction es generalizing t f with
  | nil => exact ⟨[], rfl, hf⟩
  | cons e es ih =>
      have hlt := (List.getElem?_eq_some_iff.1 hf).1
      -- Whatever is no step of the call adds no world to those that it finds.
      have helse (hne : e ≠ .step place) (hsame : (t.after e).flights[place]? = some f) :
          ∃ ws, t.submittedBy place (e :: es) = f.submissions ws ∧
            (t.afterAll (e :: es)).flights[place]? = some (f.through ws) := by
        obtain ⟨ws, hsubmitted, hend⟩ := ih hsame
        refine ⟨ws, ?_, hend⟩
        rw [submittedBy, submits_elsewhere (Or.inl hne), hsubmitted, List.nil_append]
      cases e with
      | cluster e => exact helse (by simp) hf
      | pass ticks => exact helse (by simp) hf
      | launch i => exact helse (by simp) (by rw [after, List.getElem?_append_left hlt, hf])
      | step p =>
          by_cases hp : p = place
          · subst hp
            have hafter := after_step hf
            obtain ⟨ws, hsubmitted, hend⟩ := ih (t := t.after (.step p))
              (by rw [hafter]; exact List.getElem?_set_self hlt)
            refine ⟨t.world :: ws, ?_, hend⟩
            rw [submittedBy, submits, if_pos rfl, hsubmitted, hafter]
            rfl
          · refine helse (by simpa using hp) ?_
            simp only [after]
            split
            · exact hf
            · exact (List.getElem?_set_ne hp).trans hf

end Traffic

/-- A call submits the same in each attempt, but for the member chosen in it, and takes its key
anew. With an error of its caller it has submitted nothing. -/
theorem submissions_fresh (i : Invocation) (now : Nat) (ws : List World) :
    (∀ e ∈ (Flight.launch i now).journal ws,
      (e.submitted = [] ∧ (e.begins = true → ∃ x, (i.prepare e.before).1 = .error x)) ∨
        e.begins = true ∧ ∃ s, e.submitted = [s] ∧ s.Renders i e.before e.after) ∧
      (∀ spec, i.route.target = .partitioned spec →
        (∀ s ∈ (Flight.launch i now).submissions ws, ∀ s' ∈ (Flight.launch i now).submissions ws,
          s = s') ∧
        ∀ arg, spec.Presents i.args arg → ∀ e ∈ (Flight.launch i now).journal ws,
          e.consulted = if e.begins then spec.source.consults.length else 0) ∧
      (∀ x tick, ((Flight.launch i now).through ws).phase = .settled (.error (.caller x)) tick →
        (Flight.launch i now).submissions ws = []) ∧
      ∀ (t : Traffic) (es : List Traffic.Event), ∃ found,
        (t.after (.launch i)).submittedBy t.flights.length es =
            (Flight.launch i t.world.now).submissions found ∧
          ((t.after (.launch i)).afterAll es).flights[t.flights.length]? =
            some ((Flight.launch i t.world.now).through found) := by
  have hinv : (Flight.launch i now).invocation = i := by rw [Flight.launch_eq]
  refine ⟨fun e he => (hinv ▸ Flight.lawful_journal he).renders, fun spec hs => ⟨?_, ?_⟩,
    fun x tick h => Flight.submissions_of_caller h, fun t es => ?_⟩
  · intro s hmem s' hmem'
    obtain ⟨e, -, -, hrenders⟩ := Flight.mem_submissions hmem
    obtain ⟨e', -, -, hrenders'⟩ := Flight.mem_submissions hmem'
    rw [hinv] at hrenders hrenders'
    exact hrenders.unique hrenders' hs
  · intro arg hp e he
    have hconsulted := (hinv ▸ Flight.lawful_journal he).consulted hs
    rwa [KeySpec.consulted_resolve hp] at hconsulted
  · rw [Flight.launch_eq]
    exact Traffic.exists_journal (t.launched i) es

def World.stale (members : List Member) (now : Nat) : World :=
  { World.start (.scripted (.ofList members) [⟨.result (.error (.memberLeft "a")), false⟩]) with
    now := now }

def retried (members : List Member) : List World :=
  [.stale [⟨"a", "x", false⟩] 0, .stale [] 0, .stale [] 5, .stale members 5]

def taking : Invocation :=
  ⟨"s", "Closing", ⟨⟨"close", ["String", "Account"]⟩, .partitioned .byHolder, .ofMillis 100, true⟩,
    .standalone 0, KeySpec.closed, ⟨.ofMillis 5, none⟩, ⟨"f", 1⟩⟩

def choosing : Invocation :=
  { taking with route :=
      ⟨⟨"close", ["String", "Account"]⟩, .balanced .roundRobin, .ofMillis 100, true⟩ }

theorem byPlace_choosing : choosing.route.ByPlace := by
  rintro p ⟨⟩
  exact ⟨_, _, _, rfl⟩

def keyless : Invocation := { taking with args := [.str "moved", .null] }

def replaced : List Member := [⟨"b", "y", true⟩, ⟨"c", "z", false⟩]

theorem submissions_fresh_retried :
    ((Flight.launch taking 0).submissions (retried [])).length = 2 ∧
      (∀ s ∈ (Flight.launch taking 0).submissions (retried []),
        ∀ s' ∈ (Flight.launch taking 0).submissions (retried []), s = s') ∧
      (∀ e ∈ (Flight.launch taking 0).journal (retried []),
        e.consulted = if e.begins then 1 else 0) ∧
      ((Flight.launch choosing 0).submissions (retried replaced)).map Submission.target =
        [some ⟨"a", "x", false⟩, some ⟨"c", "z", false⟩] ∧
      (Flight.launch keyless 0).submissions (retried []) = [] ∧
      ∀ e ∈ (Flight.launch choosing 0).journal (retried replaced), ∀ s, e.submitted = [s] →
        ∀ m, s.target = some m → m ∈ e.before.alive ∧ m.lite = false := by
  obtain ⟨-, hkeys, -, -⟩ := submissions_fresh taking 0 (retried [])
  obtain ⟨hsame, htaken⟩ := hkeys _ rfl
  obtain ⟨hrenders, -, -, -⟩ := submissions_fresh choosing 0 (retried replaced)
  obtain ⟨-, -, hcaller, -⟩ := submissions_fresh keyless 0 (retried [])
  refine ⟨rfl, hsame, htaken _ ⟨rfl, Json.noConfusion⟩, rfl, hcaller _ _ rfl, fun e he s hs => ?_⟩
  rcases hrenders e he with ⟨hnone, -⟩ | ⟨-, s', hs', hs'renders⟩
  · cases hnone.symm.trans hs
  · cases hs'.symm.trans hs
    exact hs'renders.present byPlace_choosing

end Switchboard

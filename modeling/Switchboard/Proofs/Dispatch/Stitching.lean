import Mathlib.Data.List.TakeWhile
import Switchboard.Proofs.Dispatch.Run
import Switchboard.Proofs.Dispatch.Scenario

namespace Switchboard

namespace RemoteError

variable (e : RemoteError) (site : List Frame)

theorem takeWhile_append_separator (before after : List Frame) :
    (before ++ Frame.separator :: after).takeWhile (!·.isSeparator) =
      before.takeWhile (!·.isSeparator) := by
  induction before with
  | nil => rfl
  | cons f before ih =>
      rw [List.cons_append, List.takeWhile_cons, List.takeWhile_cons, ih]

theorem dropWhile_append_separator (before after : List Frame) :
    (before ++ Frame.separator :: after).dropWhile (!·.isSeparator) =
      if before.any Frame.isSeparator then
        before.dropWhile (!·.isSeparator) ++ Frame.separator :: after
      else Frame.separator :: after := by
  induction before with
  | nil => rfl
  | cons f before ih =>
      rw [List.cons_append, List.dropWhile_cons, List.dropWhile_cons, List.any_cons, ih]
      cases f.isSeparator <;> rfl

theorem remoteFrames_stitch : (e.stitch site).remoteFrames = e.remoteFrames :=
  takeWhile_append_separator e.frames site

theorem localFrames_stitch :
    (e.stitch site).localFrames =
      if e.isStitched then e.localFrames ++ Frame.separator :: site else site := by
  have hdrop := dropWhile_append_separator e.frames site
  change ((e.frames ++ Frame.separator :: site).dropWhile (!·.isSeparator)).drop 1 = _
  rw [hdrop]
  cases hs : e.frames.any Frame.isSeparator with
  | false => simp [isStitched, hs]
  | true =>
      -- A separator is left, so it is the one that is dropped, and not the new one.
      have hne : e.frames.dropWhile (!·.isSeparator) ≠ [] := by
        intro hnil
        rw [List.dropWhile_eq_nil_iff] at hnil
        obtain ⟨f, hf, hsep⟩ := List.any_eq_true.1 hs
        simpa [hsep] using hnil f hf
      obtain ⟨f, rest, hcons⟩ := List.exists_cons_of_ne_nil hne
      simp [isStitched, hs, localFrames, hcons]

theorem remoteFrames_eq_frames : e.remoteFrames = e.frames ↔ e.isStitched = false := by
  rw [remoteFrames, List.takeWhile_eq_self_iff, isStitched, List.any_eq_false]
  simp

structure Relayed (e r : RemoteError) (site : List Frame) : Prop where
  kind : r.kind = e.kind
  message : r.message = e.message
  cause : r.cause = e.cause
  frames : r.frames = e.frames ++ Frame.separator :: site
  remoteFrames : r.remoteFrames = e.remoteFrames
  localFrames :
    r.localFrames = if e.isStitched then e.localFrames ++ Frame.separator :: site else site
  split : r.remoteFrames = e.frames ∧ r.localFrames = site ↔ e.isStitched = false

theorem relayed_stitch : Relayed e (e.stitch site) site where
  kind := rfl
  message := rfl
  cause := rfl
  frames := rfl
  remoteFrames := remoteFrames_stitch e site
  localFrames := localFrames_stitch e site
  split := by
    rw [remoteFrames_stitch, remoteFrames_eq_frames, localFrames_stitch]
    constructor
    · exact And.left
    · intro hs
      exact ⟨hs, by simp [hs]⟩

end RemoteError

namespace Flight

variable {i : Invocation} {w w' : World} {ph ph' : Phase}

def delivered? (w : World) : Phase → Option RemoteError
  | .waiting _ p _ =>
      match w.result? p with
      | some (.error (.remote e)) => some e
      | _ => none
  | _ => none

def raised? : Phase → Option RemoteError
  | .settled (.error e) _ => e.asRemote?
  | _ => none

theorem raised?_follow (now : Nat) (ph : Phase) : raised? (follow now ph) = raised? ph := by
  cases ph <;> rfl

theorem raised?_attempt (i : Invocation) (n : Nat) (w : World) :
    raised? (attempt i n w).1 = none := by
  unfold attempt
  split
  · next e w' hp =>
      have he : (i.prepare w).1 = .error e := congrArg Prod.fst hp
      rcases Invocation.prepare_error he with ⟨e', rfl⟩ | ⟨source, rfl⟩ <;> rfl
  · rfl

theorem raised?_conclude (i : Invocation) (n now : Nat) (x : CallFailure) (h : x.isStale = true) :
    raised? (conclude i n now (.error x)) = none := by
  cases x with
  | remote e => cases h
  | _ =>
      simp only [conclude]
      split <;> rfl

theorem raised?_step (h : step i w ph = some (ph', w')) :
    raised? ph' = (delivered? w ph).map (·.stitch (i.site.frames i.qualified)) := by
  cases ph with
  | preparing n =>
      have hattempt := raised?_attempt i n w
      rwa [show attempt i n w = (ph', w') from Option.some.inj h] at hattempt
  | waiting n p deadline =>
      simp only [step] at h
      split at h
      · next r hr =>
          cases h
          simp only [delivered?, hr]
          cases r with
          | ok v => rfl
          | error x =>
              cases x with
              | remote e => rfl
              | _ => exact raised?_conclude i n w.now _ rfl
      next hr =>
      split at h
      · have hexpire : expire i p w = (ph', w') := Option.some.inj h
        obtain rfl : (expire i p w).1 = ph' := congrArg Prod.fst hexpire
        simp only [delivered?, hr]
        rfl
      · cases h
  | resting n wake =>
      simp only [step] at h
      split at h
      · cases h
        rfl
      · cases h
  | settled r tick => cases h

theorem delivered?_of_idle (h : step i w ph = none) : delivered? w ph = none := by
  cases ph with
  | waiting n p deadline =>
      simp only [step] at h
      split at h
      · cases h
      · next hr => simp only [delivered?, hr]
  | _ => rfl

theorem raised?_of_step (h : step i w ph = some (ph', w')) : raised? ph = none := by
  cases ph with
  | settled r tick => cases h
  | _ => rfl

theorem raised?_drive (w : World) (f : Flight) :
    raised? (f.drive 1 w).1.phase = (raised? f.phase).or
      ((delivered? w (follow w.now f.phase)).map
        (·.stitch (f.invocation.site.frames f.invocation.qualified))) := by
  rcases drive_one w f with ⟨hnone, hone⟩ | ⟨ph, w', hstep, hone⟩
  · rw [hone, delivered?_of_idle hnone, raised?_follow, Option.map_none, Option.or_none]
  · have hopen := raised?_of_step hstep
    rw [raised?_follow] at hopen
    rw [hone, raised?_follow, raised?_step hstep, hopen, Option.none_or]

end Flight

namespace Traffic

variable {t : Traffic} {place : Nat} {f : Flight} {i : Invocation}

def delivers? (t : Traffic) (place : Nat) : Event → Option RemoteError
  | .step p =>
      if p = place then
        (t.flights[place]?).bind fun f =>
          Flight.delivered? t.world (Flight.follow t.world.now f.phase)
      else none
  | _ => none

def delivered? (t : Traffic) (place : Nat) : List Event → Option RemoteError
  | [] => none
  | e :: es => (t.delivers? place e).or ((t.after e).delivered? place es)

def raised? (t : Traffic) (place : Nat) : Option RemoteError :=
  (t.flights[place]?).bind fun f => Flight.raised? f.phase

theorem raised?_after (hf : t.flights[place]? = some f) (e : Event) :
    ∃ f', (t.after e).flights[place]? = some f' ∧ f'.invocation = f.invocation ∧
      Flight.raised? f'.phase = (Flight.raised? f.phase).or ((t.delivers? place e).map
        (·.stitch (f.invocation.site.frames f.invocation.qualified))) := by
  have hlt := (List.getElem?_eq_some_iff.1 hf).1
  have hsame (h : t.delivers? place e = none) : Flight.raised? f.phase =
      (Flight.raised? f.phase).or ((t.delivers? place e).map
        (·.stitch (f.invocation.site.frames f.invocation.qualified))) := by
    rw [h, Option.map_none, Option.or_none]
  cases e with
  | cluster e => exact ⟨f, hf, rfl, hsame rfl⟩
  | pass ticks => exact ⟨f, hf, rfl, hsame rfl⟩
  | launch i => exact ⟨f, (List.getElem?_append_left hlt).trans hf, rfl, hsame rfl⟩
  | step p =>
      by_cases hp : p = place
      · subst hp
        refine ⟨(f.drive 1 t.world).1, ?_, Flight.invocation_drive 1 t.world f, ?_⟩
        · simp only [after, hf]
          exact List.getElem?_set_self hlt
        · rw [Flight.raised?_drive]
          simp only [delivers?, hf, if_true, Option.bind_some]
      · refine ⟨f, ?_, rfl, hsame (if_neg hp)⟩
        simp only [after]
        split
        · exact hf
        · exact (List.getElem?_set_ne hp).trans hf

theorem raised?_afterAll (hf : t.flights[place]? = some f) (es : List Event) :
    (t.afterAll es).raised? place = (Flight.raised? f.phase).or ((t.delivered? place es).map
      (·.stitch (f.invocation.site.frames f.invocation.qualified))) := by
  induction es generalizing t f with
  | nil => simp [afterAll, raised?, hf, delivered?]
  | cons e es ih =>
      obtain ⟨f', hf', hinvocation, hraised⟩ := raised?_after hf e
      have hrest := ih hf'
      rw [hinvocation, hraised, Option.or_assoc, ← Option.map_or] at hrest
      exact hrest

/-- In every run a call ends with an error of its callee just if it was handed one in time, and
then with that one, to which the frames of its call site have been stitched. -/
theorem raised_of_delivered {start : Nat}
    (hf : t.flights[place]? = some (Flight.launch i start)) (es : List Event) :
    (∀ e, t.delivered? place es = some e →
      ∃ r, (t.afterAll es).raised? place = some r ∧
        e.Relayed r (i.site.frames i.qualified)) ∧
      ∀ r, (t.afterAll es).raised? place = some r →
        ∃ e, t.delivered? place es = some e ∧ e.Relayed r (i.site.frames i.qualified) := by
  have hraised := raised?_afterAll hf es
  have hlaunch : Flight.raised? (Flight.launch i start).phase = none ∧
      (Flight.launch i start).invocation = i := by
    unfold Flight.launch
    split <;> exact ⟨rfl, rfl⟩
  rw [hlaunch.1, hlaunch.2, Option.none_or] at hraised
  constructor
  · intro e he
    rw [he] at hraised
    exact ⟨_, hraised, e.relayed_stitch _⟩
  · intro r hr
    rw [hr] at hraised
    obtain ⟨e, he, rfl⟩ := Option.map_eq_some_iff.1 hraised.symm
    exact ⟨e, he, e.relayed_stitch _⟩

def posting : Invocation :=
  ⟨"s", "Ledger", ⟨⟨"post", []⟩, .balanced .roundRobin, .ofMillis 5, false⟩, .standalone 0, [],
    ⟨.ofMillis 2, none⟩, ⟨"shop.rs", 3⟩⟩

def failing (e : RemoteError) : Traffic :=
  ⟨.start (.scripted (.ofList [⟨"a", "x", false⟩])
    [⟨.delay 3 (.result (.error (.remote e))), false⟩]), [Flight.launch posting 0]⟩

def failingRun : List Event := [.step 0, .pass 3, .step 0, .pass 9, .step 0]

def denied : RemoteError := ((RemoteError.of "Denied" "no").addFrame (.named "Vault.open")).causedBy
  (.of "Locked" "since noon")

def deniedAgain : RemoteError := denied.stitch (CallSite.frames ⟨"ledger.rs", 7⟩ "Vault.open")

theorem raised_of_delivered_denied :
    (failing denied).delivered? 0 failingRun = some denied ∧
      ∃ r, ((failing denied).afterAll failingRun).raised? 0 = some r ∧
        r.remoteFrames = [.named "Vault.open"] ∧
          r.localFrames = [.named "Ledger.post [proxy]", ⟨"caller", some "shop.rs", some 3⟩] := by
  have hdelivered : (failing denied).delivered? 0 failingRun = some denied := rfl
  have hlaunch : (failing denied).flights[0]? = some (Flight.launch posting 0) := rfl
  obtain ⟨r, hr, hrelayed⟩ := (raised_of_delivered hlaunch failingRun).1 denied hdelivered
  exact ⟨hdelivered, r, hr, hrelayed.split.2 rfl⟩

theorem nested_error_split_early :
    ¬∀ (t : Traffic) (place start : Nat) (i : Invocation) (es : List Event) (e r : RemoteError),
      t.flights[place]? = some (Flight.launch i start) → t.delivered? place es = some e →
        (t.afterAll es).raised? place = some r →
          r.remoteFrames = e.frames ∧ r.localFrames = i.site.frames i.qualified := by
  intro h
  have hsplit := h (failing deniedAgain) 0 0 posting failingRun deniedAgain _ rfl rfl rfl
  exact absurd hsplit.1 (by decide)

end Traffic

end Switchboard

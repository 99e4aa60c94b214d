import Mathlib.Data.List.Induction
import Switchboard.Proofs.Cluster.Hooks

namespace Switchboard.Server

inductive Request where
  | start
  | shutdown
  | add (p : PartitionId)
  | remove (p : PartitionId)
  deriving DecidableEq, Repr

def handle (s : Server) : Request → Except ClusterError (Server × List HookRun)
  | .start => s.start
  | .shutdown => .ok s.shutdown
  | .add p => .ok (s.addPartition p)
  | .remove p => .ok (s.removePartition p)

structure Life where
  server : Server
  log : List HookRun

namespace Life

def new (slice : String) (member : Member) (services : List (String × Service)) : Life :=
  ⟨.new slice member services, []⟩

def after (l : Life) (r : Request) : Life :=
  match l.server.handle r with
  | .ok (s, runs) => ⟨s, l.log ++ runs⟩
  | .error _ => l

def afterAll (l : Life) (rs : List Request) : Life := rs.foldl after l

end Life

inductive Step (s : Server) : Server → List HookRun → Prop
  | idle : Step s s []
  | opens : s.status = .unstarted → Step s { s with status := .running }
      (⟨.start, .unstarted⟩ :: s.partitions.map fun p => ⟨.added p, .running⟩)
  | skips : s.status = .unstarted → Step s { s with status := .terminated } []
  | closes : s.status = .running →
      Step s { s with status := .terminated } [⟨.stop, .terminating⟩]
  | notes (ps : List PartitionId) : ps.Pairwise (· < ·) →
      (s.status = .running → ∀ q, q ∈ ps ↔ q ∈ s.partitions) →
      Step s { s with partitions := ps } []
  | gains (p : PartitionId) : s.status = .running → p ∉ s.partitions →
      Step s { s with partitions := Partitions.add p s.partitions } [⟨.added p, .running⟩]
  | loses (p : PartitionId) : s.status = .running → p ∈ s.partitions →
      Step s { s with partitions := Partitions.remove p s.partitions } [⟨.removed p, .running⟩]

variable {s s' : Server} {runs log : List HookRun} {r : Request} {rs : List Request}
  {p : PartitionId}

theorem notice_eq (s : Server) (changed : Bool) (h : Hook) :
    s.notice changed h =
      if changed = true ∧ s.status = .running then [⟨h, .running⟩] else [] := by
  unfold notice isRunning
  by_cases hr : s.status = .running <;> simp [hr]

theorem step_addPartition (h : s.partitions.Pairwise (· < ·)) (p : PartitionId) :
    Step s (s.addPartition p).1 (s.addPartition p).2 := by
  simp only [addPartition, notice_eq, owns, Bool.not_eq_true', List.contains_eq_mem,
    decide_eq_false_iff_not]
  split
  · next hg => exact .gains p hg.2 hg.1
  · next hn =>
      refine .notes _ (Partitions.pairwise_add h) fun hr q => ?_
      have hp : p ∈ s.partitions := not_not.1 fun hp => hn ⟨hp, hr⟩
      rw [Partitions.mem_add]
      exact or_iff_right_of_imp fun hq => hq ▸ hp

theorem step_removePartition (h : s.partitions.Pairwise (· < ·)) (p : PartitionId) :
    Step s (s.removePartition p).1 (s.removePartition p).2 := by
  simp only [removePartition, notice_eq, owns, List.contains_eq_mem, decide_eq_true_eq]
  split
  · next hg => exact .loses p hg.2 hg.1
  · next hn =>
      refine .notes _ (Partitions.pairwise_remove h) fun hr q => ?_
      have hp : p ∉ s.partitions := fun hp => hn ⟨hp, hr⟩
      rw [Partitions.mem_remove]
      exact and_iff_left_of_imp fun hq heq => hp (heq ▸ hq)

theorem step_handle (hs : s.partitions.Pairwise (· < ·)) (h : s.handle r = .ok (s', runs)) :
    Step s s' runs := by
  cases r with
  | start =>
      simp only [handle, start] at h
      split at h
      · next hu =>
          cases h
          exact .opens hu
      · cases h
        exact .idle
      · cases h
      · cases h
  | shutdown =>
      simp only [handle, shutdown] at h
      split at h
      · next hu =>
          cases h
          exact .skips hu
      · next hr =>
          cases h
          exact .closes hr
      · cases h
        exact .idle
      · cases h
        exact .idle
  | add p =>
      cases h
      exact step_addPartition hs p
  | remove p =>
      cases h
      exact step_removePartition hs p

inductive Word : ServerStatus → List HookRun → Prop
  | unstarted : Word .unstarted []
  | unused : Word .terminated []
  | running {body : List HookRun} :
      (∀ x ∈ body, x.hook.isChange = true ∧ x.status = .running) →
      Word .running (⟨.start, .unstarted⟩ :: body)
  | stopped {body : List HookRun} :
      (∀ x ∈ body, x.hook.isChange = true ∧ x.status = .running) →
      Word .terminated (⟨.start, .unstarted⟩ :: body ++ [⟨.stop, .terminating⟩])

theorem Word.eq_nil (h : Word .unstarted log) : log = [] := by
  cases h
  rfl

theorem Word.change {status : ServerStatus} {x : HookRun} (h : Word status log)
    (hs : status = .running) (hx : x.hook.isChange = true ∧ x.status = .running) :
    Word status (log ++ [x]) := by
  subst hs
  cases h with
  | running hbody =>
      refine .running fun y hy => ?_
      rcases List.mem_append.1 hy with hy | hy
      · exact hbody y hy
      · exact List.mem_singleton.1 hy ▸ hx

theorem Word.stop (h : Word .running log) : Word .terminated (log ++ [⟨.stop, .terminating⟩]) := by
  cases h with
  | running hbody => exact .stopped hbody

structure Life.Sound (l : Life) : Prop where
  word : Word l.server.status l.log
  ordered : l.server.partitions.Pairwise (· < ·)
  alternates : ∀ p, Alternates p l.log
  tells : l.server.status = .running → Tells l.log l.server.partitions

theorem Life.sound_new (slice : String) (member : Member) (services : List (String × Service)) :
    (Life.new slice member services).Sound where
  word := .unstarted
  ordered := .nil
  alternates p n h hn := by simp [Life.new, changes] at hn
  tells h := by cases h

theorem Life.Sound.step (h : (Life.mk s log).Sound) (hs : Step s s' runs) :
    (Life.mk s' (log ++ runs)).Sound := by
  obtain ⟨hword, hordered, halternates, htells⟩ := h
  simp only at hword hordered halternates htells
  cases hs with
  | idle => simpa using ⟨hword, hordered, halternates, htells⟩
  | opens hu =>
      obtain rfl := (hu ▸ hword).eq_nil
      have hnodup : ([] ++ s.partitions).Nodup := hordered.imp Nat.ne_of_lt
      have hall := (tells_start .unstarted).gain_all hnodup .running
      exact ⟨.running (by simp [Hook.isChange]), hordered, hall.alternates, fun _ => hall⟩
  | skips hu =>
      obtain rfl := (hu ▸ hword).eq_nil
      exact ⟨.unused, hordered, halternates, fun hr => by cases hr⟩
  | closes hr =>
      refine ⟨(hr ▸ hword).stop, hordered, fun p => ?_, fun hr => by cases hr⟩
      exact (halternates p).keep rfl
  | notes ps hps hsame =>
      rw [List.append_nil]
      exact ⟨hword, hps, halternates, fun hr => (htells hr).of_mem_iff (hsame hr)⟩
  | gains p hr hp =>
      have hnew := (htells hr).gain (r := ⟨.added p, .running⟩) hp rfl
        fun q => Partitions.mem_add (p := p)
      exact ⟨hword.change hr ⟨rfl, rfl⟩, Partitions.pairwise_add hordered, hnew.alternates,
        fun _ => hnew⟩
  | loses p hr hp =>
      have hnew := (htells hr).lose (r := ⟨.removed p, .running⟩) hp rfl
        fun q => Partitions.mem_remove (p := p)
      exact ⟨hword.change hr ⟨rfl, rfl⟩, Partitions.pairwise_remove hordered,
        hnew.alternates, fun _ => hnew⟩

theorem Life.Sound.after {l : Life} (h : l.Sound) (r : Request) : (l.after r).Sound := by
  unfold Life.after
  cases hr : l.server.handle r with
  | error e => exact h
  | ok x => exact h.step (step_handle h.ordered hr)

theorem Life.Sound.afterAll {l : Life} (h : l.Sound) (rs : List Request) :
    (l.afterAll rs).Sound := by
  induction rs generalizing l with
  | nil => exact h
  | cons r rs ih => exact ih (h.after r)

def Assigned (rs : List Request) (p : PartitionId) : Prop :=
  Stands (· = .add p) (· = .remove p) rs

theorem assigned_concat :
    Assigned (rs ++ [r]) p ↔ r = .add p ∨ Assigned rs p ∧ r ≠ .remove p :=
  stands_concat

theorem mem_partitions_after (l : Life) (r : Request) :
    p ∈ (l.after r).server.partitions ↔
      r = .add p ∨ p ∈ l.server.partitions ∧ r ≠ .remove p := by
  cases r with
  | start =>
      unfold Life.after handle start
      cases l.server.status <;> simp
  | shutdown =>
      unfold Life.after handle shutdown
      cases l.server.status <;> simp
  | add q =>
      change p ∈ Partitions.add q l.server.partitions ↔ _
      simp [Partitions.mem_add, eq_comm]
  | remove q =>
      change p ∈ Partitions.remove q l.server.partitions ↔ _
      simp [Partitions.mem_remove, eq_comm]

theorem mem_partitions_afterAll (slice : String) (member : Member)
    (services : List (String × Service)) (rs : List Request) :
    p ∈ ((Life.new slice member services).afterAll rs).server.partitions ↔ Assigned rs p := by
  induction rs using List.reverseRecOn with
  | nil => simp [Life.afterAll, Life.new, Server.new, Assigned, not_stands_nil]
  | append_singleton rs r ih =>
      rw [assigned_concat, ← ih, ← mem_partitions_after]
      simp [Life.afterAll]

inductive Advances : ServerStatus → ServerStatus → Prop
  | stays (status : ServerStatus) : Advances status status
  | starts : Advances .unstarted .running
  | stops : Advances .running .terminated
  | skips : Advances .unstarted .terminated

structure Life.Lawful (rs : List Request) (l : Life) : Prop where
  word : Word l.server.status l.log
  once : l.log.countP (·.hook = .start) ≤ 1 ∧ l.log.countP (·.hook = .stop) ≤ 1
  alternates : ∀ p, Alternates p l.log
  assigned : ∀ p, p ∈ l.server.partitions ↔ Assigned rs p
  held : l.server.status = .running → ∀ p, p ∈ l.server.partitions ↔ Holds l.log p
  advances : ∀ r, Advances l.server.status (l.after r).server.status
  refuses : ∀ r e, l.server.handle r = .error e ↔
    r = .start ∧ l.server.status = .terminated ∧ e = .alreadyTerminated l.server.slice
  silent : l.server.status = .terminated → ∀ more, (l.afterAll more).log = l.log

theorem Word.count_le {status : ServerStatus} (h : Word status log) :
    log.countP (·.hook = .start) ≤ 1 ∧ log.countP (·.hook = .stop) ≤ 1 := by
  have hnone {body : List HookRun} {h : Hook} (hh : h.isChange = false)
      (hbody : ∀ x ∈ body, x.hook.isChange = true ∧ x.status = .running) :
      body.countP (·.hook = h) = 0 := by
    refine List.countP_eq_zero.2 fun x hx heq => ?_
    have hchange := (hbody x hx).1
    rw [of_decide_eq_true heq, hh] at hchange
    cases hchange
  cases h with
  | unstarted => simp
  | unused => simp
  | running hbody =>
      have hstart := hnone (h := .start) rfl hbody
      have hstop := hnone (h := .stop) rfl hbody
      simp [hstart, hstop]
  | stopped hbody =>
      have hstart := hnone (h := .start) rfl hbody
      have hstop := hnone (h := .stop) rfl hbody
      simp [hstart, hstop]

theorem Word.not_terminating {status : ServerStatus} (h : Word status log) :
    status ≠ .terminating := by
  rintro rfl
  cases h

theorem advances_after (l : Life) (r : Request) :
    Advances l.server.status (l.after r).server.status := by
  unfold Life.after
  cases r with
  | start =>
      simp only [handle, start]
      split
      · next h =>
          split at h
          · next hu =>
              cases h
              exact hu ▸ .starts
          · cases h
            exact .stays _
          · cases h
          · cases h
      · exact .stays _
  | shutdown =>
      simp only [handle, shutdown]
      split
      · next hu => exact hu ▸ .skips
      · next hr => exact hr ▸ .stops
      · exact .stays _
      · exact .stays _
  | add p => exact .stays _
  | remove p => exact .stays _

theorem handle_eq_error (h : s.status ≠ .terminating) (r : Request) (e : ClusterError) :
    s.handle r = .error e ↔
      r = .start ∧ s.status = .terminated ∧ e = .alreadyTerminated s.slice := by
  cases r with
  | start =>
      simp only [handle, start]
      cases hs : s.status with
      | terminating => exact absurd hs h
      | terminated => simp [eq_comm]
      | _ => simp
  | _ => simp [handle]

theorem after_terminated {l : Life} (h : l.server.status = .terminated) (r : Request) :
    (l.after r).server.status = .terminated ∧ (l.after r).log = l.log := by
  unfold Life.after
  cases r with
  | start => simp [handle, start, h]
  | shutdown => simp [handle, shutdown, h]
  | add p => simp [handle, addPartition, notice_eq, h]
  | remove p => simp [handle, removePartition, notice_eq, h]

theorem log_afterAll_terminated {l : Life} (h : l.server.status = .terminated)
    (rs : List Request) : (l.afterAll rs).log = l.log := by
  induction rs generalizing l with
  | nil => rfl
  | cons r rs ih =>
      obtain ⟨hs, hlog⟩ := after_terminated h r
      exact (ih hs).trans hlog

theorem lawful_afterAll (slice : String) (member : Member) (services : List (String × Service))
    (rs : List Request) : ((Life.new slice member services).afterAll rs).Lawful rs := by
  have hsound := (Life.sound_new slice member services).afterAll rs
  exact {
    word := hsound.word
    once := hsound.word.count_le
    alternates := hsound.alternates
    assigned := fun p => mem_partitions_afterAll slice member services rs
    held := fun hr => (hsound.tells hr).holds
    advances := advances_after _
    refuses := handle_eq_error hsound.word.not_terminating
    silent := log_afterAll_terminated }

example : ((Life.new "default" ⟨"m", "x", false⟩ []).afterAll
    [.add 3, .start, .start, .add 5, .remove 3, .shutdown, .shutdown]).log.map (·.hook.display) =
      ["start", "+3", "+5", "-3", "stop"] := by decide

end Switchboard.Server

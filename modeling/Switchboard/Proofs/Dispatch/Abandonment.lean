import Switchboard.Proofs.Dispatch.Lockstep
import Switchboard.Proofs.Dispatch.Ownership

namespace Switchboard

namespace Traffic

variable {s t u : Traffic} {c d : Cluster} {es : List Event} {place m tick last : Nat}
  {i : Invocation} {ph : Phase} {limit : Duration}

structure GivesUp (t : Traffic) (place m tick : Nat) (i : Invocation) : Prop where
  now : t.world.now = tick
  waits : ∃ n deadline, deadline ≤ tick ∧
    t.flights[place]? = some ⟨i, .waiting n (.ofTask m) deadline⟩
  unanswered : t.world.result? (.ofTask m) = none

theorem GivesUp.drive (h : GivesUp t place m tick i) {n deadline : Nat} (hd : deadline ≤ tick) :
    Flight.drive 1 t.world ⟨i, .waiting n (.ofTask m) deadline⟩ =
      (⟨i, .settled (.error (.timeout i.qualified i.route.timeout)) tick⟩,
        if i.route.interrupt then t.world.mapCluster (·.abort m) else t.world) := by
  have hstep : Flight.step i t.world (.waiting n (.ofTask m) deadline) =
      some (Flight.expire i (.ofTask m) t.world) := by
    simp only [Flight.step, h.unanswered, h.now, if_pos hd]
  have hinterrupt : (t.world.interrupt (.ofTask m)).2 = t.world.mapCluster (·.abort m) := rfl
  have hnow : (if i.route.interrupt then t.world.mapCluster (·.abort m) else t.world).now =
      tick := by
    split
    · exact (World.now_mapCluster ..).trans h.now
    · exact h.now
  have hexpire : Flight.expire i (.ofTask m) t.world =
      (.settled (.error (.timeout i.qualified i.route.timeout)) tick,
        if i.route.interrupt then t.world.mapCluster (·.abort m) else t.world) := by
    simp only [Flight.expire, hinterrupt, hnow]
  rw [Flight.drive_of_some (f := ⟨i, .waiting n (.ofTask m) deadline⟩) (hstep.trans
    (congrArg some hexpire)) 0]
  rfl

theorem GivesUp.after (h : GivesUp t place m tick i) : t.after (.step place) =
    ⟨if i.route.interrupt then t.world.mapCluster (·.abort m) else t.world,
      t.flights.set place
        ⟨i, .settled (.error (.timeout i.qualified i.route.timeout)) tick⟩⟩ := by
  obtain ⟨n, deadline, hd, hf⟩ := h.waits
  rw [after_step hf, h.drive hd]

theorem GivesUp.world_kept (h : GivesUp t place m tick i) (hi : i.route.interrupt = false) :
    (t.after (.step place)).world = t.world := by
  rw [h.after, hi]
  rfl

theorem Steady.exists_expiry {x : DispatchError} (h : Steady t c)
    (hf : t.flights[place]? = some ⟨i, ph⟩) (hopen : (Flight.mk i ph).timedOut = false)
    (hend : (t.afterAll es).flights[place]? = some ⟨i, .settled (.error x) tick⟩)
    (hx : x.isTimeout = true) :
    ∃ mid after m, es = mid ++ .step place :: after ∧ (t.afterAll mid).GivesUp place m tick i := by
  induction es generalizing t c ph with
  | nil =>
      cases hf.symm.trans hend
      simp [Flight.timedOut, hx] at hopen
  | cons e es ih =>
      obtain ⟨c', -, h'⟩ := h.after e
      have hlater {ph' : Phase} (hf' : (t.after e).flights[place]? = some ⟨i, ph'⟩)
          (hopen' : (Flight.mk i ph').timedOut = false) :
          ∃ mid after m, e :: es = mid ++ .step place :: after ∧
            (t.afterAll mid).GivesUp place m tick i := by
        obtain ⟨mid, after, m, rfl, hgives⟩ := ih h' hf' hopen' hend
        exact ⟨e :: mid, after, m, rfl, hgives⟩
      rcases h.phase_after hf e with hsame | ⟨q, c'', new, rfl, hf', hm⟩
      · exact hlater hsame hopen
      · have hplain := h.plain place _ hf
        cases hm with
        | unprepared hp => exact hlater hf' (Invocation.prepare_not_timeout hp)
        | submit hp => exact hlater hf' rfl
        | @conclude n deadline p r hr =>
            exact hlater hf' (Phase.outlasts_conclude 0 i n t.world.now r).isOpen
        | @expire n deadline p _ hr hd hc =>
            cases (h'.settled_afterAll hf' es).symm.trans hend
            cases hplain with
            | failed y => cases hr
            | task m => exact ⟨[], es, m, rfl, rfl, ⟨n, deadline, hd, hf⟩, hr⟩
        | wake hwake => exact hlater hf' rfl

theorem GivesUp.unfinished (h : GivesUp t place m tick i) (hs : Steady t c)
    (hknown : c.stage? m ≠ none) :
    t.stage? m = some .queued ∨ ∃ wake work, t.stage? m = some (.working wake work) := by
  have hopen := h.unanswered
  rw [World.result?_ofTask hs.cluster, Cluster.taskResult?_eq] at hopen
  rw [hs.stage?_eq]
  cases hx : c.stage? m with
  | none => exact absurd hx hknown
  | some x =>
      rw [hx] at hopen
      cases x with
      | queued => exact Or.inl rfl
      | working wake work => exact Or.inr ⟨wake, work, rfl⟩
      | _ => cases hopen

structure CutsOff (t t' : Traffic) (place m : Nat) : Prop where
  world : t'.world = t.world.mapCluster (·.abort m)
  tasks : ∀ k, k ≠ m → t'.stage? k = t.stage? k
  calls : ∀ other, other ≠ place → t'.flights[other]? = t.flights[other]?
  stage : ∀ es, (t'.afterAll es).stage? m = some .aborted
  quiet : ∀ es, (t'.log es).filter (·.concerns m) = []
  inert : ∀ es now, (t'.afterAll es).after (.cluster (.run now m)) = t'.afterAll es

theorem GivesUp.cutsOff (h : GivesUp t place m tick i) (hs : Steady t c)
    (hknown : c.stage? m ≠ none) (hi : i.route.interrupt = true) :
    CutsOff t (t.after (.step place)) place m := by
  have hafter := h.after
  rw [hi, if_pos rfl] at hafter
  obtain ⟨c', -, hs'⟩ := hs.after (.step place)
  have hsub : c' = c.abort m := by
    have hc' := hs'.cluster
    rw [hafter] at hc'
    simpa [World.mapCluster, hs.cluster] using hc'.symm
  subst hsub
  have hstage : (c.abort m).stage? m = some .aborted := by
    have hopen := h.unfinished hs hknown
    rw [hs.stage?_eq] at hopen
    rw [Cluster.stage?_abort, if_pos rfl]
    rcases hopen with hq | ⟨wake, work, hw⟩
    · rw [hq]
      rfl
    · rw [hw]
      rfl
  have hresult : ∃ r, (t.after (.step place)).world.result? (.ofTask m) = some r := by
    rw [World.result?_ofTask hs'.cluster, Cluster.taskResult?_eq, hstage]
    exact ⟨_, rfl⟩
  obtain ⟨r, hr⟩ := hresult
  have hended := hs'.ended_afterAll hr
  refine ⟨by rw [hafter], fun k hk => ?_, fun other hne => ?_, fun es => ?_,
    fun es => (hended es).2.2.2, fun es now => ?_⟩
  · rw [hs'.stage?_eq, hs.stage?_eq, Cluster.stage?_abort, if_neg (Ne.symm hk)]
  · rw [hafter]
    exact List.getElem?_set_ne (Ne.symm hne)
  · rw [(hended es).2.2.1, hs'.stage?_eq, hstage]
  · obtain ⟨⟨d, hd⟩, hr', -⟩ := hended es
    exact hd.inert_of_result hr' now

/-- Two runs agree on a task: on the tick, on its stage, on all else until it has ended, and on what
is seen of it and what it does when it is run. -/
structure Agrees (s u : Traffic) (place m : Nat) : Prop where
  now : u.world.now = s.world.now
  stage : u.stage? m = s.stage? m
  world : s.world.result? (.ofTask m) = none → u.world = s.world
  calls : s.world.result? (.ofTask m) = none →
    ∀ other, other ≠ place → u.flights[other]? = s.flights[other]?
  signals : ∀ e, (u.signals e).filter (·.concerns m) = (s.signals e).filter (·.concerns m)
  runs : ∀ now, (u.after (.cluster (.run now m))).world = (s.after (.cluster (.run now m))).world ∨
    u.after (.cluster (.run now m)) = u ∧ s.after (.cluster (.run now m)) = s

theorem Twin.agrees {f g : Flight} (h : Twin place s u f g) (m : Nat) : Agrees s u place m where
  now := congrArg World.now h.world
  stage := h.stage? m
  world _ := h.world
  calls _ _ hne := h.others hne
  signals e := by
    cases e with
    | cluster e => simp only [signals, h.world]
    | step p => rw [concerning_step, concerning_step]
    | _ => rfl
  runs now := Or.inl (congrArg (World.mapCluster (·.after (.run now m))) h.world)

theorem Parted.agrees (h : Parted place m last s u) (hs : Steady s c) (hu : Steady u d) :
    Agrees s u place m := by
  cases h with
  | waiting htwin _ _ => exact htwin.agrees m
  | ended hr hr' hstage hnow =>
      refine ⟨hnow, hstage, fun hnone => ?_, fun hnone => ?_, fun e => ?_, fun now => ?_⟩
      · rw [hr] at hnone
        cases hnone
      · rw [hr] at hnone
        cases hnone
      · rw [hs.quiet_of_result hr, hu.quiet_of_result hr']
      · exact Or.inr ⟨hu.inert_of_result hr' now, hs.inert_of_result hr now⟩

theorem GivesUp.isOpen (h : GivesUp t place m tick i) {f : Flight}
    (hf : t.flights[place]? = some f) : f.timedOut = false := by
  obtain ⟨n, deadline, -, hwaits⟩ := h.waits
  cases hwaits.symm.trans hf
  rfl

theorem Abreast.parted (h : Abreast place last i limit s u) (hgives : GivesUp s place m tick i)
    (hi : i.route.interrupt = false) (hnow : s.world.now ≤ last) :
    Parted place m last (s.after (.step place)) (u.after (.step place)) := by
  obtain ⟨ph, ph', htwin, halike, hlasts⟩ := h.twin
  obtain ⟨n, deadline, hd, hf⟩ := hgives.waits
  cases htwin.here.symm.trans hf
  cases halike with
  | waiting _ _ _ deadline' =>
      have hlate : last < deadline' := hlasts
      have hdrive := hgives.drive (n := n) hd
      simp only [hi, Bool.false_eq_true, if_false] at hdrive
      have hwaits := Flight.drive_waiting (i := i.within limit) (n := n) hgives.unanswered
        (Nat.lt_of_le_of_lt hnow hlate)
      refine .waiting (htwin.step hdrive hwaits) hlate ?_
      rw [hgives.world_kept hi]
      exact hgives.unanswered

theorem Abreast.agrees {mid after pre : List Event} (h : Abreast place last i limit s u)
    (hend : (s.afterAll (mid ++ .step place :: after)).world.now ≤ last)
    (hgives : GivesUp (s.afterAll mid) place m tick i) (hi : i.route.interrupt = false)
    (hpre : pre <+: mid ++ .step place :: after) : Agrees (s.afterAll pre) (u.afterAll pre) place m := by
  obtain ⟨c, hs⟩ := h.first
  obtain ⟨d, hu⟩ := h.second
  have hmid : mid <+: mid ++ .step place :: after := List.prefix_append ..
  have hin {es : List Event} (hp : es <+: mid ++ .step place :: after) :
      (s.afterAll es).world.now ≤ last := Nat.le_trans (s.now_le_of_prefix hp) hend
  rcases List.prefix_or_prefix_of_prefix hpre hmid with hp | ⟨rest, rfl⟩
  · -- Up to the timeout the runs differ in the deadline of the call.
    obtain ⟨post, rfl⟩ := hp
    obtain ⟨c', hs'⟩ := hs.afterAll pre
    rw [afterAll_append] at hgives
    have habreast := h.afterAll (hin hpre) fun f => hs'.open_of_open fun g => hgives.isOpen
    obtain ⟨ph, ph', htwin, -⟩ := habreast.twin
    exact htwin.agrees m
  -- From there on they are parted.
  have habreast := h.afterAll (hin hmid) fun f => hgives.isOpen
  cases rest with
  | nil =>
      obtain ⟨ph, ph', htwin, -⟩ := habreast.twin
      rw [List.append_nil]
      exact htwin.agrees m
  | cons e rest =>
      obtain ⟨rfl, -⟩ := List.cons_prefix_cons.1 ((List.prefix_append_right_inj mid).1 hpre)
      have hparted := habreast.parted hgives hi (hin hmid)
      obtain ⟨c₁, hs₁⟩ := habreast.first
      obtain ⟨d₁, hu₁⟩ := habreast.second
      obtain ⟨c₂, -, hs₂⟩ := hs₁.after (.step place)
      obtain ⟨d₂, -, hu₂⟩ := hu₁.after (.step place)
      obtain ⟨c₃, hs₃⟩ := hs₂.afterAll rest
      obtain ⟨d₃, hu₃⟩ := hu₂.afterAll rest
      have hlater := hin hpre
      rw [afterAll_append] at hlater ⊢
      rw [afterAll_append]
      exact (hparted.afterAll hs₂ hu₂ hlater).agrees hs₃ hu₃

theorem GivesUp.own (h : GivesUp ((begin c).afterAll es) place m tick i) (hs : c.Sound)
    (hempty : c.tasks = []) (rest : List Event) :
    (∃ d, Steady ((begin c).afterAll es) d ∧ d.stage? m ≠ none) ∧
      ∀ other, m ∈ sentBy other ((begin c).log (es ++ rest)) ↔ other = place := by
  obtain ⟨d, hsteady, hnumbered⟩ := (numbered_begin c).afterAll (steady_begin hs) es
  obtain ⟨d₁, -, hall⟩ := (numbered_begin c).afterAll (steady_begin hs) (es ++ rest)
  obtain ⟨d₂, htracked⟩ := (tracked_begin hs hempty).afterAll es
  obtain ⟨n, deadline, -, hf⟩ := h.waits
  have hsent : m ∈ sentBy place ((begin c).log es) := (htracked.traced place _ hf).1
  have hlater : m ∈ sentBy place ((begin c).log (es ++ rest)) := by
    rw [log_append, sentBy_append]
    exact List.mem_append_left _ hsent
  refine ⟨⟨d, hsteady, hnumbered.known place m hsent⟩, fun other => ⟨fun hother => ?_, ?_⟩⟩
  · exact hall.single other place m hother hlater
  · rintro rfl
    exact hlater

end Traffic

/-- A call that comes to its timeout gives up one task, which is its own. With the interruption the
task is cut off there and nothing else is touched. Without it the task goes on as in the run in
which the call has a timeout beyond the end of the run, whatever else happens. -/
theorem abandoned_task {config : ClusterConfig} {c₀ : Cluster}
    (hnew : Cluster.create config = .ok c₀) (before rest : List Traffic.Event) {i : Invocation}
    {place : Nat} {method : String} {limit : Duration} {tick : Nat}
    (hplace : place = ((Traffic.begin c₀).afterAll before).flights.length)
    (hend : ((Traffic.begin c₀).afterAll (before ++ .launch i :: rest)).flights[place]? =
      some ⟨i, .settled (.error (.timeout method limit)) tick⟩) :
    let run := fun j es => (Traffic.begin c₀).afterAll (before ++ .launch j :: es)
    ∃ mid after m, rest = mid ++ .step place :: after ∧ (run i mid).GivesUp place m tick i ∧
      ((run i mid).stage? m = some .queued ∨
        ∃ wake work, (run i mid).stage? m = some (.working wake work)) ∧
      (∀ other, m ∈ sentBy other ((Traffic.begin c₀).log (before ++ .launch i :: rest)) ↔
        other = place) ∧
      (i.route.interrupt = true →
        Traffic.CutsOff (run i mid) ((run i mid).after (.step place)) place m) ∧
      (i.route.interrupt = false → ((run i mid).after (.step place)).world = (run i mid).world ∧
        ∀ long : Duration, (run i rest).world.now < long.ticks →
          (∀ f, (run (i.within long) rest).flights[place]? = some f → f.timedOut = false) ∧
          ∀ pre, pre <+: rest → Traffic.Agrees (run i pre) (run (i.within long) pre) place m) := by
  intro run
  subst hplace
  obtain ⟨rfl, hpos⟩ := Cluster.create_eq hnew
  have hsound := Cluster.sound_new hpos
  have hrun (j : Invocation) (es : List Traffic.Event) : run j es =
      (((Traffic.begin (.new config)).afterAll before).after (.launch j)).afterAll es :=
    Traffic.afterAll_append _ before (.launch j :: es)
  obtain ⟨c, hs⟩ := (Traffic.steady_begin hsound).afterAll before
  have hlaunch (j : Invocation) := Traffic.launched ((Traffic.begin (.new config)).afterAll before) j
  obtain ⟨c', -, hs'⟩ := hs.after (.launch i)
  change (run i rest).flights[_]? = _ at hend
  rw [hrun] at hend
  obtain ⟨mid, after, m, rfl, hgives⟩ := hs'.exists_expiry (hlaunch i)
    (Phase.outlasts_launch 0 i _).isOpen hend rfl
  rw [← hrun] at hgives
  obtain ⟨⟨d, hd, hknown⟩, hown⟩ := hgives.own hsound rfl (.step _ :: after)
  rw [List.append_assoc, List.cons_append] at hown
  refine ⟨mid, after, m, rfl, hgives, hgives.unfinished hd hknown, hown,
    hgives.cutsOff hd hknown, fun hi => ⟨hgives.world_kept hi, fun long hlong => ?_⟩⟩
  rw [hrun] at hlong hgives
  have habreast := hs.abreast_launch (i := i) hlong
  refine ⟨fun f hf => ?_, fun pre hpre => ?_⟩
  · rw [hrun] at hf
    exact habreast.open_afterAll (Nat.le_refl _) hf
  · rw [hrun, hrun]
    exact habreast.agrees (Nat.le_refl _) hgives hi hpre

def reporting : Traffic.Event :=
  .cluster (.operate (.add ⟨"a", "x", false⟩ [("S",
    { respond := fun _ _ _ => .sleep 10 (.access (Keyed.insert "reports" 1) fun _ =>
        .done (.ok .null)) })]))

def hasty (interrupt : Bool) (ms : Nat) : Invocation :=
  ⟨"s", "S", ⟨⟨"m", []⟩, .balanced .sticky, .ofMillis ms, interrupt⟩, .standalone 0, [],
    ⟨.ofMillis 5, none⟩, ⟨"f", 1⟩⟩

def reported : List Traffic.Event :=
  [.step 0, .cluster (.run 0 0), .pass 4, .step 0, .pass 6, .cluster (.run 10 0), .step 0]

def unreported : List Traffic.Event := [.step 0, .step 0, .cluster (.run 0 0), .pass 10]

theorem abandoned_task_of_hasty :
    let run := fun i es => (Traffic.begin (.new ⟨1, "s"⟩)).afterAll ([reporting] ++ .launch i :: es)
    (∃ mid, Traffic.CutsOff (run (hasty true 4) mid) ((run (hasty true 4) mid).after (.step 0)) 0 0) ∧
      (∃ mid, Traffic.CutsOff (run (hasty true 0) mid) ((run (hasty true 0) mid).after (.step 0)) 0 0) ∧
      (run (hasty true 4) reported).stage? 0 = some .aborted ∧
      (run (hasty true 0) unreported).stage? 0 = some .aborted ∧
      (run (hasty false 4) reported).stage? 0 = some (.finished (.ok .null)) ∧
      ∀ pre, pre <+: reported → Traffic.Agrees (run (hasty false 4) pre)
        (run ((hasty false 4).within (.ofMillis 11)) pre) 0 0 := by
  intro run
  have hnew : Cluster.create ⟨1, "s"⟩ = .ok (.new ⟨1, "s"⟩) := rfl
  have hasleep : (run (hasty true 4) reported).flights[0]? = some ⟨hasty true 4,
      .settled (.error (.timeout (hasty true 4).qualified (.ofMillis 4))) 4⟩ := rfl
  have hqueued : (run (hasty true 0) unreported).flights[0]? = some ⟨hasty true 0,
      .settled (.error (.timeout (hasty true 0).qualified (.ofMillis 0))) 0⟩ := rfl
  have hkept : (run (hasty false 4) reported).flights[0]? = some ⟨hasty false 4,
      .settled (.error (.timeout (hasty false 4).qualified (.ofMillis 4))) 4⟩ := rfl
  have hsent {i : Invocation} {es : List Traffic.Event} {m : Nat}
      (hlog : sentBy 0 ((Traffic.begin (.new ⟨1, "s"⟩)).log ([reporting] ++ .launch i :: es)) = [0])
      (hm : m ∈ sentBy 0 ((Traffic.begin (.new ⟨1, "s"⟩)).log ([reporting] ++ .launch i :: es))) :
      m = 0 := by
    rw [hlog] at hm
    exact List.mem_singleton.1 hm
  obtain ⟨mid, -, m, -, -, -, hown, hcut, -⟩ := abandoned_task hnew [reporting] reported rfl hasleep
  obtain ⟨mid', -, m', -, -, -, hown', hcut', -⟩ :=
    abandoned_task hnew [reporting] unreported rfl hqueued
  obtain ⟨mid'', -, m'', -, -, -, hown'', -, hagrees⟩ :=
    abandoned_task hnew [reporting] reported rfl hkept
  obtain rfl := hsent rfl ((hown 0).2 rfl)
  obtain rfl := hsent rfl ((hown' 0).2 rfl)
  obtain rfl := hsent rfl ((hown'' 0).2 rfl)
  exact ⟨⟨mid, hcut rfl⟩, ⟨mid', hcut' rfl⟩, rfl, rfl, rfl,
    ((hagrees rfl).2 (.ofMillis 11) (by decide)).2⟩

end Switchboard

import Mathlib.Data.List.Induction
import Switchboard.Proofs.Cluster.Disturbance
import Switchboard.Proofs.Dispatch.Movement
import Switchboard.Proofs.Dispatch.Selection

namespace Switchboard

variable {c c' : Cluster} {w : World} {i : Invocation} {ph ph' : Phase} {new : List Submission}
  {made cost place n : Nat} {p : Pending} {t t' : Traffic}

inductive Pending.Firm (c : Cluster) : Pending → Prop
  | failed {e : CallFailure} : e.isStale = false → Firm c (.settled (.error e))
  | task {n : Nat} : c.Firm n → Firm c (.ofTask n)

theorem Pending.Firm.result (h : p.Firm c) (hw : w.substrate = .cluster c) {e : CallFailure}
    (hr : w.result? p = some (.error e)) : e.isStale = false := by
  cases h with
  | failed he =>
      cases hr
      exact he
  | task hn =>
      obtain ⟨t, ht, -, hsettled⟩ := hn
      rw [World.result?_ofTask hw] at hr
      exact hsettled e (by simpa [Cluster.taskResult?, ht] using hr)

theorem Pending.Firm.after (h : p.Firm c) (hs : c.Sound) {e : Cluster.Event}
    (he : c.disturbs e = false) : p.Firm (c.after e) := by
  cases h with
  | failed hx => exact .failed hx
  | task hn => exact .task (hn.after hs he)

theorem firm_submission (h : c.Sound) {call : Call} {target : Option Member}
    (halive : ∀ m, target = some m → m ∈ c.alive) :
    (c.submit call target).1.pending.Firm (c.submit call target).2 := by
  cases hr : (c.submit call target).1 with
  | settled r =>
      obtain ⟨-, e, rfl⟩ := Cluster.submit_settled hr
      exact .failed (Cluster.submit_not_stale h halive hr)
  | task n => exact .task (Cluster.firm_submit hr)

theorem firm_of_prepare (hw : w.substrate = .cluster c) (hc : c.Sound) (hi : i.route.ByPlace)
    {call : Call} {target : Option Member} (hp : (i.prepare w).1 = .ok (call, target)) :
    (c.submit call target).1.pending.Firm (c.submit call target).2 := by
  refine firm_submission hc fun m hm => ?_
  simpa [World.alive, Substrate.alive, hw] using hi.prepare hp m hm

namespace Traffic

def disturbs (t : Traffic) : Event → Bool
  | .cluster e => (t.world.cluster?.map (·.disturbs e)).getD false
  | _ => false

def isOpen (t : Traffic) (place : Nat) : Bool :=
  ((t.flights[place]?).map (!·.isSettled)).getD false

def disturbances (t : Traffic) (place : Nat) (es : List Event) : Nat :=
  t.tally (fun t e => (t.isOpen place && t.disturbs e).toNat) es

def Disturbed (t : Traffic) (es : List Event) : Prop :=
  ∃ before e after, es = before ++ e :: after ∧ (t.afterAll before).disturbs e = true

variable {e : Event}

theorem Steady.disturbs_cluster (h : Steady t c) (e : Cluster.Event) :
    t.disturbs (.cluster e) = c.disturbs e := by
  simp [disturbs, World.cluster?, h.cluster]

theorem Steady.keeps_firm (h : Steady t c) (he : Happens t c e t' c')
    (hquiet : t.disturbs e = false) (hp : p.Firm c) : p.Firm c' := by
  rcases he.reaches with rfl | ⟨e', rfl, rfl⟩ | ⟨call, target, rfl⟩ | ⟨m, rfl⟩
  · exact hp
  · exact hp.after h.sound (h.disturbs_cluster e' ▸ hquiet)
  · exact hp.after h.sound rfl
  · exact hp.after h.sound rfl

theorem Steady.firm_after (h : Steady t c) {es : List Event} (hquiet : ¬t.Disturbed es)
    (hp : p.Firm c) : ∃ c', Steady (t.afterAll es) c' ∧ p.Firm c' := by
  induction es generalizing t c with
  | nil => exact ⟨c, h, hp⟩
  | cons e es ih =>
      obtain ⟨c', he, h'⟩ := h.after e
      have hfirst : t.disturbs e = false := by
        by_contra hd
        exact hquiet ⟨[], e, es, rfl, eq_true_of_ne_false hd⟩
      refine ih h' ?_ (h.keeps_firm he hfirst hp)
      rintro ⟨before, e', after, rfl, hd⟩
      exact hquiet ⟨e :: before, e', after, rfl, hd⟩

theorem Steady.run_of_refused (h : Steady t c) (he : Happens t c e t' c') {x : CallFailure}
    (hq : c.stage? n = some .queued) (hx : c'.stage? n = some (.refused x)) :
    ∃ now, e = .cluster (.run now n) ∧ c' = c.after (.run now n) := by
  rcases he.reaches with rfl | ⟨e', rfl, rfl⟩ | ⟨call, target, rfl⟩ | ⟨m, rfl⟩
  · rw [hq] at hx
    cases hx
  all_goals
    obtain ⟨now, u, s, he', -⟩ := Cluster.refused_after h.sound hq hx
    cases he'
  exact ⟨now, rfl, rfl⟩

theorem Steady.first_run (h : Steady t c) {es : List Event} {x : CallFailure}
    (hq : c.stage? n = some .queued) (h' : Steady (t.afterAll es) c')
    (hx : c'.stage? n = some (.refused x)) :
    ∃ before now after d, es = before ++ .cluster (.run now n) :: after ∧
      Steady (t.afterAll before) d ∧ d.stage? n = some .queued ∧
      (d.after (.run now n)).stage? n = some (.refused x) := by
  -- From the end of the run, where the last event either left the refusal as it was or made it.
  induction es using List.reverseRecOn generalizing c' with
  | nil =>
      obtain rfl := h.unique h'
      rw [hq] at hx
      cases hx
  | append_singleton es e ih =>
      obtain ⟨d, hd⟩ := h.afterAll es
      obtain ⟨d', he, hd'⟩ := hd.after e
      rw [afterAll_append] at h'
      obtain rfl := hd'.unique h'
      obtain ⟨seen, hp⟩ := hd.progress he n
      rw [hx] at hp
      generalize hs : d.stage? n = s at hp
      cases hp with
      | still =>
          obtain ⟨before, now, after, u, rfl, hrest⟩ := ih hd hs
          exact ⟨before, now, after ++ [e], u, by simp, hrest⟩
      | refuse =>
          obtain ⟨now, rfl, rfl⟩ := hd.run_of_refused he hs hx
          exact ⟨es, now, [], d, rfl, hd, hs, hx⟩

/-- The submissions of a call, and the disturbances that pay for all of them but one. -/
def Paid (c : Cluster) (made cost : Nat) : Phase → Prop
  | .preparing _ | .resting _ _ => made ≤ cost
  | .waiting _ p _ => made ≤ cost ∨ made ≤ cost + 1 ∧ p.Firm c
  | .settled _ _ => made ≤ cost + 1

theorem Paid.most (h : Paid c made cost ph) : made ≤ cost + 1 := by
  cases ph with
  | waiting n p deadline =>
      rcases h with h | ⟨h, -⟩
      · exact Nat.le_succ_of_le h
      · exact h
  | settled r tick => exact h
  | _ => exact Nat.le_succ_of_le h

theorem paid_settled {r : Except DispatchError Json} {tick : Nat} (h : Paid c made cost ph) :
    Paid c' made cost (.settled r tick) := h.most

theorem Paid.conclude {deadline : Nat} {r : CallResult} (hw : w.substrate = .cluster c)
    (h : Paid c made cost (.waiting n p deadline)) (hr : w.result? p = some r) (now : Nat) :
    Paid c made cost (Flight.conclude i n now r) := by
  rcases Flight.conclude_cases i n now r with hc | ⟨⟨e, rfl, he⟩, hc⟩
  · exact hc ▸ paid_settled h
  · rw [hc]
    rcases h with h | ⟨-, hp⟩
    · exact h
    · rw [hp.result hw hr] at he
      cases he

theorem Paid.move (hw : w.substrate = .cluster c) (hc : c.Sound) (hi : i.route.ByPlace)
    (h : Paid c made cost ph) (hm : Flight.Move i w c ph ph' c' new) :
    Paid c' (made + new.length) cost ph' := by
  cases hm with
  | unprepared hp => exact paid_settled h
  | submit hp => exact Or.inr ⟨Nat.succ_le_succ h, firm_of_prepare hw hc hi hp⟩
  | conclude hr => exact h.conclude hw hr w.now
  | expire hr hd hc => exact paid_settled h
  | wake hwake => exact h

theorem Paid.toll (h : Paid c made cost ph) (hopen : ∀ r tick, ph ≠ .settled r tick) :
    Paid c' made (cost + 1) ph := by
  cases ph with
  | waiting n p deadline => exact Or.inl h.most
  | settled r tick => exact absurd rfl (hopen r tick)
  | _ => exact Nat.le_succ_of_le h

theorem Steady.paid_elsewhere (h : Steady t c) (he : Happens t c e t' c')
    (hquiet : t.disturbs e = false) (hp : Paid c made cost ph) : Paid c' made cost ph := by
  cases ph with
  | waiting n p deadline =>
      rcases hp with hp | ⟨hmade, hp⟩
      · exact Or.inl hp
      · exact Or.inr ⟨hmade, h.keeps_firm he hquiet hp⟩
  | _ => exact hp

def Covered (t : Traffic) (c : Cluster) (place made cost : Nat) : Prop :=
  match t.flights[place]? with
  | none => made = 0
  | some f => f.invocation.route.ByPlace → Paid c made cost f.phase

theorem Covered.elsewhere (hs : Steady t c) (he : Happens t c e t' c')
    (h : Covered t c place made cost) (hsame : t'.flights[place]? = t.flights[place]?) :
    Covered t' c' place made (cost + (t.isOpen place && t.disturbs e).toNat) := by
  unfold Covered at h ⊢
  rw [hsame]
  cases hf : t.flights[place]? with
  | none => simpa only [hf] using h
  | some f =>
      simp only [hf] at h ⊢
      intro hstd
      cases hd : t.disturbs e with
      | false => simpa using hs.paid_elsewhere he hd (h hstd)
      | true =>
          obtain ⟨i, ph⟩ := f
          cases ph with
          | settled r tick => exact Nat.le_trans (h hstd).most (by omega)
          | _ =>
              have hopen : t.isOpen place = true := by simp [isOpen, hf, Flight.isSettled]
              simpa [hopen] using (h hstd).toll (by simp)

theorem Covered.after (hs : Steady t c) (h : Covered t c place made cost) (e : Event) :
    ∃ c', Steady (t.after e) c' ∧
      Covered (t.after e) c' place (made + (t.submits place e).length)
        (cost + (t.isOpen place && t.disturbs e).toNat) := by
  obtain ⟨c', he, hs'⟩ := hs.after e
  refine ⟨c', hs', ?_⟩
  rcases he.at_place place with ⟨hsame, helse⟩ | ⟨i, rfl, rfl, hnone, hsome⟩ |
    ⟨f, ph, new, rfl, hf, hf', hm, hnew⟩
  · rw [submits_elsewhere (helse.imp_right And.left)]
    exact h.elsewhere hs he hsame
  · obtain rfl : made = 0 := by simpa only [Covered, hnone] using h
    rw [submits_elsewhere (Or.inl (by simp))]
    unfold Covered
    rw [hsome]
    intro _
    unfold Flight.launch
    split <;> exact Nat.zero_le _
  · have hsubmits : t.submits place (.step place) = new := by simp [submits, hnew]
    have hpaid : f.invocation.route.ByPlace → Paid c made cost f.phase := by
      simpa only [Covered, hf] using h
    rw [hsubmits]
    unfold Covered
    rw [hf']
    intro hstd
    simpa [disturbs] using (hpaid hstd).move hs.cluster hs.sound hstd hm

theorem Covered.afterAll (hs : Steady t c) (h : Covered t c place made cost) (es : List Event) :
    ∃ c', Covered (t.afterAll es) c' place (made + (t.submittedBy place es).length)
      (cost + t.disturbances place es) := by
  induction es generalizing t c made cost with
  | nil => exact ⟨c, h⟩
  | cons e es ih =>
      obtain ⟨c', hs', h'⟩ := h.after hs e
      obtain ⟨c'', h''⟩ := ih hs' h'
      refine ⟨c'', ?_⟩
      rw [submittedBy, List.length_append, disturbances, tally, ← Nat.add_assoc, ← Nat.add_assoc]
      exact h''

end Traffic

theorem refused_of_stale {seen : List Signal} {e : CallFailure}
    (h : Cluster.History n seen (c.stage? n)) (hr : c.taskResult? n = some (.error e))
    (he : e.isStale = true) : c.stage? n = some (.refused e) := by
  rcases Cluster.stage_of_result h hr with ⟨v, hv, -⟩ | ⟨x, hx⟩ | ⟨x, hx, y, hs⟩
  · cases hv
  · cases hx
    cases he
  · rw [Cluster.taskResult?_eq, hs] at hr
    cases hr
    exact hs

theorem firm_of_attempt {deadline : Nat} (hw : w.substrate = .cluster c) (h : c.Sound)
    (hi : i.route.ByPlace)
    (hm : Flight.Move i w c (.preparing n) (.waiting n p deadline) c' new) :
    p.Firm c' ∧ ∀ m, p = .ofTask m → c'.stage? m = some .queued := by
  cases hm with
  | @submit n call target hp =>
      refine ⟨firm_of_prepare hw h hi hp, fun m hm => ?_⟩
      cases hr : (c.submit call target).1 with
      | settled r =>
          rw [hr] at hm
          cases hm
      | task k =>
          rw [hr] at hm
          cases hm
          exact Cluster.queued_of_submit hr

namespace Traffic

theorem Steady.begins_firm {deadline : Nat} (h : Steady t c) (hi : i.route.ByPlace)
    (hpre : t.flights[place]? = some ⟨i, .preparing n⟩)
    (hwait : (t.after (.step place)).flights[place]? = some ⟨i, .waiting n p deadline⟩) :
    ∃ c', Steady (t.after (.step place)) c' ∧ p.Firm c' ∧
      ∀ m, p = .ofTask m → c'.stage? m = some .queued := by
  obtain ⟨c', he, h'⟩ := h.after (.step place)
  refine ⟨c', h', ?_⟩
  rcases he.at_place place with ⟨hsame, -⟩ | ⟨j, hj, -⟩ | ⟨f, ph, new, -, hf, hf', hm, -⟩
  · rw [hsame, hpre] at hwait
    cases hwait
  · cases hj
  · rw [hpre] at hf
    cases hf
    rw [hf'] at hwait
    cases hwait
    exact firm_of_attempt h.cluster h.sound hi hm

theorem Steady.refusal_disturbed (h : Steady t c) (hp : Pending.Firm c (.ofTask n))
    (hq : c.stage? n = some .queued) {es : List Event} (h' : Steady (t.afterAll es) c')
    {e : CallFailure} (hx : c'.stage? n = some (.refused e)) (he : e.isStale = true) :
    ∃ first now rest, es = first ++ .cluster (.run now n) :: rest ∧
      (t.afterAll first).stage? n = some .queued ∧
      ((t.afterAll first).after (.cluster (.run now n))).stage? n = some (.refused e) ∧
      t.Disturbed first := by
  obtain ⟨first, now, rest, d, rfl, hd, hqueued, hrefused⟩ := h.first_run hq h' hx
  refine ⟨first, now, rest, rfl, (hd.stage?_eq n).trans hqueued, ?_, ?_⟩
  · have hd' := hd.next (hd.happens_cluster (.run now n))
    exact (hd'.stage?_eq n).trans hrefused
  · by_contra hquiet
    obtain ⟨d', hd', hfirm⟩ := h.firm_after hquiet hp
    obtain rfl := hd.unique hd'
    cases hfirm.after hd.sound (e := .run now n) rfl with
    | task hn =>
        obtain ⟨u, hu, -, hsettled⟩ := hn
        have hstage : u.stage = .refused e := by
          rw [Cluster.stage?, hu] at hrefused
          exact Option.some.inj hrefused
        rw [hsettled e (by rw [hstage]; rfl)] at he
        cases he

theorem Steady.stale_disturbed {log : List Signal} (h : Steady t c) (hp : p.Firm c)
    (hq : ∀ m, p = .ofTask m → c.stage? m = some .queued) {es : List Event} {d : Cluster}
    (hd : Tracked (t.afterAll es) d log) {e : CallFailure}
    (hr : (t.afterAll es).world.result? p = some (.error e)) (he : e.isStale = true) :
    ∃ m first now rest, p = .ofTask m ∧ es = first ++ .cluster (.run now m) :: rest ∧
      (t.afterAll first).stage? m = some .queued ∧
      ((t.afterAll first).after (.cluster (.run now m))).stage? m = some (.refused e) ∧
      t.Disturbed first := by
  obtain ⟨d', hd'⟩ := h.afterAll es
  obtain rfl : d = d' := by
    have hsame := hd.cluster.symm.trans hd'.cluster
    cases hsame
    rfl
  cases hp with
  | failed hx =>
      cases hr
      rw [hx] at he
      cases he
  | @task m hm =>
      rw [World.result?_ofTask hd.cluster] at hr
      have hrefused := refused_of_stale (hd.history m) hr he
      obtain ⟨first, now, rest, hrest⟩ :=
        h.refusal_disturbed (.task hm) (hq m rfl) hd' hrefused he
      exact ⟨m, first, now, rest, rfl, hrest⟩

end Traffic

/-- An attempt ends in a stale route only if the cluster has been disturbed before the first run of
its task, and so a call makes at most one submission more than there are disturbances of the cluster
while it goes on, however often it may be tried again. -/
theorem stale_attempts_paid {config : ClusterConfig} {c₀ : Cluster}
    (hnew : Cluster.create config = .ok c₀) :
    (∀ (before between : List Traffic.Event) (place n deadline : Nat) (i : Invocation)
        (p : Pending) (e : CallFailure), i.route.ByPlace →
      ((Traffic.begin c₀).afterAll before).flights[place]? = some ⟨i, .preparing n⟩ →
      ((Traffic.begin c₀).afterAll (before ++ [.step place])).flights[place]? =
        some ⟨i, .waiting n p deadline⟩ →
      ((Traffic.begin c₀).afterAll (before ++ .step place :: between)).world.result? p =
        some (.error e) → e.isStale = true →
      let t := (Traffic.begin c₀).afterAll (before ++ [.step place])
      ∃ m first now rest, p = .ofTask m ∧ between = first ++ .cluster (.run now m) :: rest ∧
        (t.afterAll first).stage? m = some .queued ∧
        ((t.afterAll first).after (.cluster (.run now m))).stage? m = some (.refused e) ∧
        t.Disturbed first) ∧
    ∀ (es : List Traffic.Event) (place : Nat) (f : Flight),
      ((Traffic.begin c₀).afterAll es).flights[place]? = some f → f.invocation.route.ByPlace →
      ((Traffic.begin c₀).submittedBy place es).length ≤
        (Traffic.begin c₀).disturbances place es + 1 := by
  obtain ⟨rfl, hpos⟩ := Cluster.create_eq hnew
  have hbegin := Traffic.steady_begin (Cluster.sound_new hpos)
  refine ⟨?_, ?_⟩
  · intro before between place n deadline i p e hstd hpre hwait hres he t
    obtain ⟨c, hc⟩ := hbegin.afterAll before
    have hstep : t = ((Traffic.begin (.new config)).afterAll before).after (.step place) :=
      Traffic.afterAll_append _ before [.step place]
    have hend : (Traffic.begin (.new config)).afterAll (before ++ .step place :: between) =
        t.afterAll between := by
      rw [hstep]
      exact Traffic.afterAll_append _ before (.step place :: between)
    rw [Traffic.afterAll_append] at hwait
    obtain ⟨c', hc', hfirm, hqueued⟩ := hc.begins_firm hstd hpre hwait
    obtain ⟨d, hd⟩ := (tracked_begin (Cluster.sound_new hpos) rfl).afterAll
      (before ++ .step place :: between)
    rw [hend] at hd hres
    rw [← hstep] at hc'
    exact hc'.stale_disturbed hfirm hqueued hd hres he
  · intro es place f hf hstd
    have hstart : Traffic.Covered (.begin (.new config)) (.new config) place 0 0 := rfl
    obtain ⟨c, hc⟩ := hstart.afterAll hbegin es
    unfold Traffic.Covered at hc
    rw [hf] at hc
    simpa using (hc hstd).most

def turning : Invocation :=
  ⟨"s", "S", ⟨⟨"m", []⟩, .balanced .roundRobin, .ofMillis 100, false⟩, .standalone 0, [],
    ⟨.ofMillis 5, none⟩, ⟨"f", 1⟩⟩

theorem byPlace_turning : turning.route.ByPlace := by
  intro p hp
  cases hp
  exact ⟨_, _, _, rfl⟩

def leaving : List Traffic.Event := [.cluster (.operate (.remove "a")), joining, .cluster (.run 0 0)]

def twice : List Traffic.Event :=
  [joining, .launch turning, .step 0] ++ leaving ++
    [.step 0, .pass 5, .step 0, .step 0, .cluster (.run 5 1), .step 0]

theorem stale_attempts_paid_twice :
    ((Traffic.begin (.new ⟨1, "s"⟩)).submittedBy 0 twice).length = 2 ∧
      (Traffic.begin (.new ⟨1, "s"⟩)).disturbances 0 twice = 1 ∧
      ((Traffic.begin (.new ⟨1, "s"⟩)).submittedBy 0 twice).length ≤
        (Traffic.begin (.new ⟨1, "s"⟩)).disturbances 0 twice + 1 ∧
      ∃ m first now rest, Pending.ofTask 0 = .ofTask m ∧
        leaving = first ++ .cluster (.run now m) :: rest ∧
        ((Traffic.begin (.new ⟨1, "s"⟩)).afterAll
          [joining, .launch turning, .step 0]).Disturbed first := by
  have hnew : Cluster.create ⟨1, "s"⟩ = .ok (.new ⟨1, "s"⟩) := rfl
  obtain ⟨m, first, now, rest, hm, hsplit, -, -, hd⟩ := (stale_attempts_paid hnew).1
    [joining, .launch turning] leaving 0 1 100 turning (.ofTask 0) (.memberLeft "a")
    byPlace_turning rfl rfl rfl rfl
  have hpaid := (stale_attempts_paid hnew).2 twice 0 ⟨turning, .settled (.ok .null) 5⟩ rfl
    byPlace_turning
  exact ⟨rfl, rfl, hpaid, m, first, now, rest, hm, hsplit, hd⟩

end Switchboard

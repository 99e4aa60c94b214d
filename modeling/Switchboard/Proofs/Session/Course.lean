import Switchboard.Proofs.Dispatch.Provision
import Switchboard.Session.Run

namespace Switchboard

inductive Answer.Hands (p : Proxy) : Answer → Prop
  | proxy {n cached : Nat} : Hands p (.proxy (.ok (n, p)) cached)
  | call {r : Reply} {elapsed : Nat} {beside : List Answer} {ledger : Ledger} {a : Answer} :
      a ∈ beside → Hands p a → Hands p (.call r elapsed beside ledger)
  | parallel {calls : List (Reply × Nat × List Answer)} {ledger : Ledger}
      {c : Reply × Nat × List Answer} {a : Answer} :
      c ∈ calls → a ∈ c.2.2 → Hands p a → Hands p (.parallel calls ledger)

def Answer.Silent (a : Answer) : Prop := ∀ p, ¬a.Hands p

structure Desk where
  providers : List (String × Provider)
  proxies : List (String × Proxy)
  issued : Nat

namespace Desk

def number (d : Desk) : Desk := { d with issued := d.issued + 1 }

def file (d : Desk) (name : String) (p : Provider) : Desk :=
  { d with providers := Keyed.insert name p d.providers }

def bind (d : Desk) (name : String) (x : Proxy) : Desk :=
  { d with proxies := Keyed.insert name x d.proxies }

inductive Move (d : Desk) : List Proxy → Desk → Prop
  | number : Move d [] d.number
  | create {name : String} {p : Provider} {config : ClientConfig} {types : TypeRegistry}
      {policies : PolicyRegistry} {hasher : Hasher} :
      Provider.create config types policies hasher = .ok p → Move d [] (d.file name p)
  | refuse {name : String} {p : Provider} {r : Provider.Request} {e : DeclarationError} :
      Keyed.find? name d.providers = some p → r.id = d.issued + 1 → p.answer r = .error e →
      Move d [] (d.number.file name (p.after r))
  | hand {name binding : String} {p : Provider} {r : Provider.Request} {x : Proxy} :
      Keyed.find? name d.providers = some p → r.id = d.issued + 1 → p.answer r = .ok x →
      Move d [x] ((d.number.file name (p.after r)).bind binding x)

inductive Course (d : Desk) : List Proxy → Desk → Prop
  | refl : Course d [] d
  | move {d' d'' : Desk} {xs ys : List Proxy} :
      Course d xs d' → Move d' ys d'' → Course d (xs ++ ys) d''

variable {d d' d'' : Desk} {xs ys : List Proxy}

theorem Course.single (h : Move d xs d') : Course d xs d' := .move .refl h

theorem Course.trans (h : Course d xs d') (h' : Course d' ys d'') : Course d (xs ++ ys) d'' := by
  induction h' with
  | refl => simpa using h
  | move _ hmove ih =>
      rw [← List.append_assoc]
      exact ih.move hmove

end Desk

namespace Session

variable {s t u : Session} {as bs : List Answer} {a : Answer} {p : Proxy}

def desk (s : Session) : Desk := ⟨s.providers, s.proxies, s.issued⟩

def Comes (s : Session) (as : List Answer) (t : Session) : Prop :=
  ∃ xs, Desk.Course s.desk xs t.desk ∧ ∀ a ∈ as, ∀ p, a.Hands p → p ∈ xs

theorem Comes.single {d : Desk} {xs : List Proxy} (ht : t.desk = d)
    (hd : Desk.Course s.desk xs d) (ha : ∀ p, a.Hands p → p ∈ xs) : s.Comes [a] t :=
  ⟨xs, ht ▸ hd, fun _ hb => List.mem_singleton.1 hb ▸ ha⟩

theorem Comes.idle (ht : t.desk = s.desk) (ha : a.Silent) : s.Comes [a] t :=
  .single ht .refl fun p hp => absurd hp (ha p)

theorem Comes.nil (ht : t.desk = s.desk) : s.Comes [] t :=
  ⟨[], ht ▸ .refl, by simp⟩

theorem Comes.append (h : s.Comes as t) (h' : t.Comes bs u) : s.Comes (as ++ bs) u := by
  obtain ⟨xs, hxs, hshown⟩ := h
  obtain ⟨ys, hys, hshown'⟩ := h'
  refine ⟨xs ++ ys, hxs.trans hys, fun a ha p hp => List.mem_append.2 ?_⟩
  rcases List.mem_append.1 ha with ha | ha
  · exact .inl (hshown a ha p hp)
  · exact .inr (hshown' a ha p hp)

theorem Comes.call {r : Reply} {elapsed : Nat} {ledger : Ledger} (h : s.Comes as t)
    (hu : u.desk = t.desk) : s.Comes [.call r elapsed as ledger] u := by
  obtain ⟨xs, hxs, hshown⟩ := h
  refine .single hu hxs ?_
  rintro p (_ | ⟨ha, hp⟩)
  exact hshown _ ha p hp

theorem Comes.parallel {reports : List (Reply × Nat × List Answer)} {ledger : Ledger}
    (h : s.Comes as t) (hu : u.desk = t.desk) (hreports : ∀ c ∈ reports, ∀ a ∈ c.2.2, a ∈ as) :
    s.Comes [.parallel reports ledger] u := by
  obtain ⟨xs, hxs, hshown⟩ := h
  refine .single hu hxs ?_
  rintro p (_ | _ | ⟨hc, ha, hp⟩)
  exact hshown _ (hreports _ hc _ ha) p hp

theorem viaProxy_desk (s : Session) (p : Proxy) (args : List Json) (l : Proxy.Lookup) :
    (s.viaProxy p args l).2.desk = s.desk := by
  cases l <;> rfl

theorem begin_desk (s : Session) (r : CallRequest) : (s.begin r).2.desk = s.desk := by
  obtain ⟨callee, args⟩ := r
  cases callee with
  | byName name method =>
      cases hp : s.proxy? name with
      | none => simp only [Session.begin, hp]
      | some p => simp only [Session.begin, hp, viaProxy_desk]
  | bySignature name signature =>
      cases hp : s.proxy? name with
      | none => simp only [Session.begin, hp]
      | some p => simp only [Session.begin, hp, viaProxy_desk]
  | direct c =>
      cases hi : s.directInvocation? c (args.map s.argument) with
      | none => simp only [Session.begin, hi]
      | some i =>
          simp only [Session.begin, hi]
          rfl

theorem comes_next (s : Session) (policy : String) (times : Nat) (call : Call) :
    s.Comes [(s.next policy times call).1] (s.next policy times call).2 := by
  unfold Session.next
  split <;> exact .idle rfl nofun

theorem comes_await (s : Session) (name : String) (ms : Nat) :
    s.Comes [(s.await name ms).1] (s.await name ms).2 := by
  unfold await
  split
  · exact .idle rfl nofun
  next pending _ =>
    generalize s.traffic.await pending ms = out
    obtain ⟨r, pending', t⟩ := out
    cases r <;> exact .idle rfl nofun

theorem comes_cancel (s : Session) (name : String) :
    s.Comes [(s.cancel name).1] (s.cancel name).2 := by
  unfold cancel
  split <;> exact .idle rfl nofun

theorem silent_compareProxies (s : Session) (a b : String) : (s.compareProxies a b).Silent := by
  unfold compareProxies
  split <;> nofun

theorem comes_buildPolicy (s : Session) (name binding : String) :
    s.Comes [(s.buildPolicy name binding).1] (s.buildPolicy name binding).2 := by
  unfold buildPolicy
  split
  · exact .idle rfl nofun
  · exact .single rfl (.single .number) nofun

theorem comes_createProvider (s : Session) (binding : String) (config : ClientConfig)
    (types : Option TypeRegistry) : s.Comes [(s.createProvider binding config types).1]
      (s.createProvider binding config types).2 := by
  unfold createProvider
  split
  · exact .idle rfl nofun
  next p hp => exact .single rfl (.single (.create hp)) nofun

section Asking

variable {provider : String} {i : Interface} {known : Provider}

theorem getProxy_refused {e : DeclarationError} (binding : String)
    (hp : Keyed.find? provider s.providers = some known)
    (hr : known.answer ⟨s.issued + 1, i⟩ = .error e) :
    ∃ cached t, s.getProxy provider i binding = (.proxy (.error e) cached, t) ∧
      t.desk = s.desk.number.file provider (known.after ⟨s.issued + 1, i⟩) := by
  have hboth : known.getProxy (s.issued + 1) i = (.error e, known.after ⟨s.issued + 1, i⟩) :=
    Prod.ext hr rfl
  simp only [getProxy, hp, hboth]
  exact ⟨_, _, rfl, rfl⟩

theorem getProxy_handed {x : Proxy} (binding : String)
    (hp : Keyed.find? provider s.providers = some known)
    (hr : known.answer ⟨s.issued + 1, i⟩ = .ok x) :
    ∃ n cached t, s.getProxy provider i binding = (.proxy (.ok (n, x)) cached, t) ∧
      t.desk = (s.desk.number.file provider (known.after ⟨s.issued + 1, i⟩)).bind binding x := by
  have hboth : known.getProxy (s.issued + 1) i = (.ok x, known.after ⟨s.issued + 1, i⟩) :=
    Prod.ext hr rfl
  simp only [getProxy, hp, hboth]
  refine ⟨_, _, _, rfl, ?_⟩
  unfold present
  split <;> rfl

theorem comes_getProxy (s : Session) (provider : String) (i : Interface) (binding : String) :
    s.Comes [(s.getProxy provider i binding).1] (s.getProxy provider i binding).2 := by
  cases hp : Keyed.find? provider s.providers with
  | none =>
      simp only [getProxy, hp]
      exact .idle rfl nofun
  | some known =>
      cases hr : known.answer ⟨s.issued + 1, i⟩ with
      | error e =>
          obtain ⟨cached, t, heq, ht⟩ := getProxy_refused binding hp hr
          rw [heq]
          exact .single ht (.single (.refuse hp rfl hr)) nofun
      | ok x =>
          obtain ⟨n, cached, t, heq, ht⟩ := getProxy_handed binding hp hr
          rw [heq]
          refine .single ht (.single (.hand hp rfl hr)) ?_
          rintro _ ⟨⟩
          exact List.mem_singleton_self x

end Asking

theorem comes_withCluster {f : Cluster → Answer × Cluster} (s : Session)
    (hf : ∀ c, (f c).1.Silent) : s.Comes [(s.withCluster f).1] (s.withCluster f).2 := by
  unfold withCluster
  split
  · exact .idle rfl nofun
  next c _ => exact .idle rfl (hf c)

theorem silent_addMember (m : Member) (plans : List (String × ServicePlan)) (c : Cluster) :
    (addMember m plans c).1.Silent := by
  unfold addMember
  simp only
  split
  · nofun
  · split <;> nofun

theorem silent_removeMember (id : MemberId) (c : Cluster) : (removeMember id c).1.Silent := by
  unfold removeMember
  split <;> nofun

theorem silent_changed (c : Cluster) (r : Except ClusterError Cluster) :
    (changed c r).1.Silent := by
  cases r <;> nofun

theorem silent_onSeat {id : MemberId} {f : Cluster → Seat → Answer × Cluster}
    (hf : ∀ c seat, (f c seat).1.Silent) (c : Cluster) : (onSeat id f c).1.Silent := by
  unfold onSeat
  split
  · nofun
  · exact hf c _

-- The induction is the recursion of the run: what stands beside a call is part of its step.
mutual

theorem comes_runStep (s : Session) :
    ∀ step : Step, s.Comes [(s.runStep step).1] (s.runStep step).2
  | .register _ | .unregister _ | .updateStatus .. | .get _ | .registry _ | .policies _
  | .registerPolicy .. | .samePolicy .. | .submit .. | .sleep _ => by
      simp only [runStep]
      exact .idle rfl nofun
  | .buildPolicy name binding => by
      simp only [runStep]
      exact comes_buildPolicy s name binding
  | .provider binding config types => by
      simp only [runStep]
      exact comes_createProvider s binding config types
  | .getProxy provider i binding => by
      simp only [runStep]
      exact comes_getProxy s provider i binding
  | .call r first later => by
      simp only [runStep]
      have hbegin : s.Comes [] (s.begin r).2 := .nil (begin_desk s r)
      have hfirst := hbegin.append (comes_runSteps _ first)
      have hlater := hfirst.append (comes_runLater _ s.now later)
      exact hlater.call rfl
  | .parallel calls later => by
      simp only [runStep]
      have hlater := (comes_startAll s calls).append (comes_runPlaced _ s.now later)
      refine hlater.parallel rfl fun c hc a ha => ?_
      obtain ⟨⟨⟨st, early⟩, place⟩, hplaced, rfl⟩ := List.mem_map.1 hc
      rcases List.mem_append.1 ha with ha | ha
      · refine List.mem_append_left _ (List.mem_flatMap.2 ⟨(st, early), ?_, ha⟩)
        exact List.fst_mem_of_mem_zipIdx hplaced
      · obtain ⟨e, he, ha⟩ := List.mem_flatMap.1 ha
        exact List.mem_append_right _ (List.mem_flatMap.2 ⟨e, List.mem_of_mem_filter he, ha⟩)
  | .next policy times call => by
      simp only [runStep]
      exact comes_next s policy times call
  | .sameProxy a b => by
      simp only [runStep]
      exact .idle rfl (silent_compareProxies s a b)
  | .await name ms => by
      simp only [runStep]
      exact comes_await s name ms
  | .cancel name => by
      simp only [runStep]
      exact comes_cancel s name
  | .addMember m plans => by
      simp only [runStep]
      exact comes_withCluster s (silent_addMember m plans)
  | .removeMember id => by
      simp only [runStep]
      exact comes_withCluster s (silent_removeMember id)
  | .move p id => by
      simp only [runStep]
      exact comes_withCluster s fun c => silent_changed c _
  | .serverStart id => by
      simp only [runStep]
      exact comes_withCluster s (silent_onSeat fun c seat => silent_changed c _)
  | .serverShutdown id => by
      simp only [runStep]
      exact comes_withCluster s (silent_onSeat fun c seat => nofun)
  | .ownerOfKey none => by
      simp only [runStep]
      exact .idle rfl nofun
  | .ownerOfKey (some _) | .ownerOf _ | .cluster | .server _ | .rebalance | .shutdown => by
      simp only [runStep]
      exact comes_withCluster s fun c => nofun

theorem comes_runSteps (s : Session) :
    ∀ steps : List Step, s.Comes (s.runSteps steps).1 (s.runSteps steps).2
  | [] => by
      simp only [runSteps]
      exact .nil rfl
  | step :: rest => by
      simp only [runSteps]
      exact (comes_runStep s step).append (comes_runSteps _ rest)

theorem comes_runLater (s : Session) (since : Nat) : ∀ groups : List (Nat × List Step),
    s.Comes (s.runLater since groups).1 (s.runLater since groups).2
  | [] => by
      simp only [runLater]
      exact .nil rfl
  | (time, steps) :: rest => by
      simp only [runLater]
      have hpass : s.Comes [] (s.advanceTo (since + time)) := .nil rfl
      exact (hpass.append (comes_runSteps _ steps)).append (comes_runLater _ since rest)

theorem comes_runPlaced (s : Session) (since : Nat) : ∀ groups : List (Nat × Nat × List Step),
    s.Comes ((s.runPlaced since groups).1.flatMap (·.2)) (s.runPlaced since groups).2
  | [] => by
      simp only [runPlaced]
      exact .nil rfl
  | (time, place, steps) :: rest => by
      simp only [runPlaced]
      have hpass : s.Comes [] (s.advanceTo (since + time)) := .nil rfl
      exact (hpass.append (comes_runSteps _ steps)).append (comes_runPlaced _ since rest)

theorem comes_startAll (s : Session) : ∀ calls : List (CallRequest × List Step),
    s.Comes ((s.startAll calls).1.flatMap (·.2)) (s.startAll calls).2
  | [] => by
      simp only [startAll]
      exact .nil rfl
  | (r, first) :: rest => by
      simp only [startAll]
      have hbegin : s.Comes [] (s.begin r).2 := .nil (begin_desk s r)
      exact (hbegin.append (comes_runSteps _ first)).append (comes_startAll _ rest)

end

end Session

end Switchboard

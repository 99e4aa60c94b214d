import Switchboard.Proofs.Dispatch.Provision
import Switchboard.Proofs.Dispatch.Turns
import Switchboard.Proofs.Interface.Coverage

namespace Switchboard

structure Endpoint where
  interface : String
  signature : Signature
  deriving DecidableEq

structure Client where
  provider : Provider
  traffic : Traffic
  called : List Endpoint

namespace Client

inductive Act where
  | request (r : Provider.Request)
  | call (interface method : String) (args : List Json) (site : CallSite)
  | callExact (interface : String) (signature : Signature) (args : List Json) (site : CallSite)
  | step (place : Nat)
  | cluster (e : Cluster.Event)
  | members (change : Registry → Registry)
  | pass (ticks : Nat)

def start (p : Provider) (s : Substrate) : Client := ⟨p, ⟨World.start s, []⟩, []⟩

def proxy? (c : Client) (interface : String) : Option Proxy :=
  Keyed.find? interface c.provider.proxies

def begin (c : Client) (x : Proxy) (args : List Json) (site : CallSite) : Proxy.Lookup → Client
  | .route r =>
      { c with
        traffic := c.traffic.after (.launch (x.invocation r args site))
        called := c.called ++ [⟨x.interface.name, r.signature⟩] }
  | _ => c

def after (c : Client) : Act → Client
  | .request r => { c with provider := c.provider.after r }
  | .call interface method args site =>
      match c.proxy? interface with
      | some x => c.begin x args site (x.lookup method args)
      | none => c
  | .callExact interface signature args site =>
      match c.proxy? interface with
      | some x => c.begin x args site (x.lookupSignature signature)
      | none => c
  | .step place => { c with traffic := c.traffic.after (.step place) }
  | .cluster e => { c with traffic := c.traffic.after (.cluster e) }
  | .members change =>
      { c with traffic := { c.traffic with world := c.traffic.world.mapRegistry change } }
  | .pass ticks => { c with traffic := c.traffic.after (.pass ticks) }

def afterAll (c : Client) (acts : List Act) : Client := acts.foldl after c

def Act.request? : Act → Option Provider.Request
  | .request r => some r
  | _ => none

def requests (acts : List Act) : List Provider.Request := acts.filterMap Act.request?

def attempt? (c : Client) (m : Endpoint) : Act → Option Attempt
  | .step place => if c.called[place]? = some m then c.traffic.attempt? place else none
  | _ => none

def attempts (c : Client) (m : Endpoint) : List Act → List Attempt
  | [] => []
  | a :: acts => (c.attempt? m a).toList ++ (c.after a).attempts m acts

variable {c : Client} {p q : Provider} {m : Endpoint} {x : Proxy} {a : Act} {acts : List Act}
  {place : Nat} {f : Flight} {r : Route}

theorem provider_begin (c : Client) (x : Proxy) (args : List Json) (site : CallSite)
    (found : Proxy.Lookup) : (c.begin x args site found).provider = c.provider := by
  cases found <;> rfl

theorem provider_after (c : Client) (a : Act) :
    (c.after a).provider = c.provider.afterAll a.request?.toList := by
  cases a with
  | call interface method args site =>
      simp only [after]
      split
      · exact provider_begin ..
      · rfl
  | callExact interface signature args site =>
      simp only [after]
      split
      · exact provider_begin ..
      · rfl
  | _ => rfl

theorem provider_afterAll (c : Client) (acts : List Act) :
    (c.afterAll acts).provider = c.provider.afterAll (requests acts) := by
  induction acts generalizing c with
  | nil => rfl
  | cons a acts ih =>
      have hrequests : requests (a :: acts) = a.request?.toList ++ requests acts := by
        cases ha : a.request? <;> simp [requests, ha]
      have hrest := ih (c.after a)
      rw [provider_after] at hrest
      rw [hrequests, Provider.afterAll, List.foldl_append]
      exact hrest

def Serves (q : Provider) (m : Endpoint) (i : Invocation) : Prop :=
  ∃ x, Keyed.find? m.interface q.proxies = some x ∧
    x.table.route? m.signature = some i.route ∧ i.policy = .ofRoute x.id m.signature

structure Settled (q : Provider) : Prop where
  named : ∀ name x, Keyed.find? name q.proxies = some x → x.interface.name = name
  routed : ∀ name x, Keyed.find? name q.proxies = some x →
    ∀ r ∈ x.table.routes, x.table.route? r.signature = some r
  distinct : (q.proxies.map (·.2.id)).Nodup

theorem settled_afterAll (hp : p.proxies = []) {rs : List Provider.Request}
    (hids : (rs.map Provider.Request.id).Nodup) : Settled (p.afterAll rs) where
  named name x hx := ((Provider.remembers_afterAll hp rs).known name x hx).1
  routed name x hx _ hr :=
    Analyzer.route?_of_analyze ((Provider.remembers_afterAll hp rs).known name x hx).2.1 hr
  distinct := Provider.ids_nodup hp hids

theorem Settled.other_instance (h : Settled q) (hx : Keyed.find? m.interface q.proxies = some x)
    {m' : Endpoint} {i : Invocation} (hi : Serves q m' i) (hne : m' ≠ m) :
    .ofRoute x.id m.signature ≠ i.policy := by
  obtain ⟨y, hy, -, hpolicy⟩ := hi
  intro hsame
  rw [hpolicy, PolicyInstance.ofRoute.injEq] at hsame
  have hentry := List.inj_on_of_nodup_map h.distinct (Keyed.mem_of_find? hx) (Keyed.mem_of_find? hy)
    hsame.1
  have hinterface : m.interface = m'.interface := congrArg Prod.fst hentry
  obtain ⟨interface, signature⟩ := m
  obtain ⟨interface', signature'⟩ := m'
  exact hne (congrArg₂ Endpoint.mk hinterface.symm hsame.2.symm)

theorem route_of_lookup {method : String} {args : List Json}
    (h : x.lookup method args = .route r) : r ∈ x.table.routes := by
  unfold Proxy.lookup at h
  split at h
  · next r' hfind =>
      cases h
      have hmem : r ∈ x.table.find method args.length := hfind ▸ List.mem_singleton_self r
      exact (RouteTable.mem_find.1 hmem).1
  · split at h <;> cases h
  · cases h

theorem route_of_lookupSignature {s : Signature} (h : x.lookupSignature s = .route r) :
    r ∈ x.table.routes := by
  unfold Proxy.lookupSignature at h
  split at h
  · next r' hfind =>
      cases h
      exact List.mem_of_find?_eq_some hfind
  · cases h

def Bound (q : Provider) (c : Client) : Prop :=
  List.Forall₂ (Serves q) c.called (c.traffic.flights.map Flight.invocation)

theorem Bound.serves (h : Bound q c) (hf : c.traffic.flights[place]? = some f)
    (hm : c.called[place]? = some m) : Serves q m f.invocation := by
  have hi : (c.traffic.flights.map Flight.invocation)[place]? = some f.invocation := by
    rw [List.getElem?_map, hf]
    rfl
  apply (List.forall₂_iff_zip.1 h).2
  exact List.mem_of_getElem? (List.getElem?_zip_eq_some.2 ⟨hm, hi⟩)

theorem Bound.called (h : Bound q c) (hf : c.traffic.flights[place]? = some f) :
    ∃ m, c.called[place]? = some m := by
  have hlt := (List.getElem?_eq_some_iff.1 hf).1
  have hlength := h.length_eq
  rw [List.length_map] at hlength
  exact ⟨_, List.getElem?_eq_getElem (hlength ▸ hlt)⟩

theorem Bound.begin (h : Bound q c) (hq : Settled q) {name : String}
    (hx : Keyed.find? name q.proxies = some x) {found : Proxy.Lookup}
    (hfound : ∀ r, found = .route r → r ∈ x.table.routes) (args : List Json) (site : CallSite) :
    Bound q (c.begin x args site found) := by
  cases found with
  | route r =>
      have hserves : Serves q ⟨x.interface.name, r.signature⟩ (x.invocation r args site) :=
        ⟨x, (hq.named name x hx).symm ▸ hx, hq.routed name x hx r (hfound r rfl), rfl⟩
      have hlaunch : (Flight.launch (x.invocation r args site) c.traffic.world.now).invocation =
          x.invocation r args site := by
        unfold Flight.launch
        split <;> rfl
      simp only [Bound, Client.begin, Traffic.after, List.map_append, List.map_cons, List.map_nil,
        hlaunch]
      exact List.rel_append h (.cons hserves .nil)
  | answer v => exact h
  | failure e => exact h

theorem invocations_step (t : Traffic) (place : Nat) :
    (t.after (.step place)).flights.map Flight.invocation = t.flights.map Flight.invocation := by
  simp only [Traffic.after]
  split
  · rfl
  · next f hf =>
      rw [List.map_set, Flight.invocation_drive]
      apply Traffic.set_getElem?_self
      rw [List.getElem?_map, hf]
      rfl

theorem Bound.after (h : Bound q c) (hq : Settled q)
    (hkept : ∀ name x, c.proxy? name = some x → Keyed.find? name q.proxies = some x) (a : Act) :
    Bound q (c.after a) := by
  cases a with
  | call interface method args site =>
      simp only [Client.after]
      split
      · next x hx => exact h.begin hq (hkept _ x hx) (fun r => route_of_lookup) args site
      · exact h
  | callExact interface signature args site =>
      simp only [Client.after]
      split
      · next x hx => exact h.begin hq (hkept _ x hx) (fun r => route_of_lookupSignature) args site
      · exact h
  | step place =>
      simp only [Bound, Client.after, invocations_step]
      exact h
  | _ => exact h

theorem kept (hacts : (c.afterAll acts).provider = q) {name : String}
    (hx : c.proxy? name = some x) : Keyed.find? name q.proxies = some x := by
  rw [← hacts, provider_afterAll]
  exact Provider.find?_afterAll hx (requests acts)

theorem attempt?_step {att : Attempt} (h : c.attempt? m a = some att) :
    ∃ place f, a = .step place ∧ c.called[place]? = some m ∧
      c.traffic.flights[place]? = some f ∧ c.traffic.attempt? place = some att := by
  cases a with
  | step place =>
      simp only [attempt?] at h
      split at h
      · next hm =>
          cases hf : c.traffic.flights[place]? with
          | none => simp [Traffic.attempt?, hf] at h
          | some f => exact ⟨place, f, rfl, hm, hf, h⟩
      · cases h
  | _ => cases h

theorem cursor_of_no_attempt (h : Bound q c) (hq : Settled q)
    (hx : Keyed.find? m.interface q.proxies = some x) (ha : c.attempt? m a = none) :
    (c.after a).traffic.world.cursors.get (.ofRoute x.id m.signature) =
      c.traffic.world.cursors.get (.ofRoute x.id m.signature) := by
  cases a with
  | request r => rfl
  | call interface method args site =>
      simp only [after]
      split
      · next y hy => cases y.lookup method args <;> rfl
      · rfl
  | callExact interface signature args site =>
      simp only [after]
      split
      · next y hy => cases y.lookupSignature signature <;> rfl
      · rfl
  | step place =>
      cases hf : c.traffic.flights[place]? with
      | none => simp only [after, Traffic.after, hf]
      | some f =>
          obtain ⟨m', hm'⟩ := h.called hf
          by_cases hm : m' = m
          · subst hm
            have hno : c.traffic.attempt? place = none := by simpa [attempt?, hm'] using ha
            exact congrArg _ (Traffic.cursors_of_no_attempt hf hno)
          · exact Traffic.cursor_of_other hf (hq.other_instance hx (h.serves hf hm') hm)
  | cluster e => exact congrArg _ (World.cursors_mapCluster ..)
  | members change =>
      simp only [after, World.mapRegistry]
      split <;> rfl
  | pass ticks => rfl

theorem cursor_of_attempt (h : Bound q c) (hx : Keyed.find? m.interface q.proxies = some x)
    (hr : x.table.route? m.signature = some r) (htarget : r.target = .balanced .roundRobin)
    {att : Attempt} (ha : c.attempt? m a = some att) :
    att.target =
        memberAt? att.view (c.traffic.world.cursors.get (.ofRoute x.id m.signature)).toNat ∧
      (c.after a).traffic.world.cursors.get (.ofRoute x.id m.signature) =
        turned att.view (c.traffic.world.cursors.get (.ofRoute x.id m.signature)) := by
  obtain ⟨place, f, rfl, hm, hf, hatt⟩ := attempt?_step ha
  obtain ⟨y, hy, hroute, hpolicy⟩ := h.serves hf hm
  obtain rfl : x = y := Option.some.inj (hx.symm.trans hy)
  obtain rfl : r = f.invocation.route := Option.some.inj (hr.symm.trans hroute)
  have hturn := Traffic.attempt?_in_turn hf htarget hatt
  rwa [hpolicy] at hturn

theorem targets_eq_turns (hq : Settled q) (hx : Keyed.find? m.interface q.proxies = some x)
    (hr : x.table.route? m.signature = some r) (htarget : r.target = .balanced .roundRobin)
    (hacts : (c.afterAll acts).provider = q) (h : Bound q c) :
    (c.attempts m acts).map Attempt.target =
      turns (c.traffic.world.cursors.get (.ofRoute x.id m.signature))
        ((c.attempts m acts).map Attempt.view) := by
  induction acts generalizing c with
  | nil => rfl
  | cons a acts ih =>
      have hrest := ih hacts (h.after hq (fun name y => kept hacts) a)
      cases ha : c.attempt? m a with
      | none =>
          rw [cursor_of_no_attempt h hq hx ha] at hrest
          simpa [attempts, ha] using hrest
      | some att =>
          obtain ⟨hatt, hcursor⟩ := cursor_of_attempt h hx hr htarget ha
          rw [hcursor] at hrest
          simp only [attempts, ha, Option.toList_some, List.singleton_append, List.map_cons, turns,
            hatt, hrest]

theorem attempts_of_unknown (hq : Settled q) (hnone : Keyed.find? m.interface q.proxies = none)
    (hacts : (c.afterAll acts).provider = q) (h : Bound q c) : c.attempts m acts = [] := by
  induction acts generalizing c with
  | nil => rfl
  | cons a acts ih =>
      have hrest := ih hacts (h.after hq (fun name y => kept hacts) a)
      cases ha : c.attempt? m a with
      | none => simp [attempts, ha, hrest]
      | some att =>
          obtain ⟨place, f, -, hm, hf, -⟩ := attempt?_step ha
          obtain ⟨y, hy, -⟩ := h.serves hf hm
          rw [hnone] at hy
          cases hy

theorem bound_start (p q : Provider) (s : Substrate) : Bound q (start p s) := .nil

/-- Each attempt of a method in turn targets the member whose turn it is by the attempts of the same
method that found one before. Any other run that gives no other declaration to the name, such as the
run without the other calls and requests, has the same targets if it has the same views. -/
theorem round_robin_isolated {config : ClientConfig} {types : TypeRegistry}
    {policies : PolicyRegistry} {hasher : Hasher}
    (hnew : Provider.create config types policies hasher = .ok p)
    (s : Substrate) (acts : List Act) (hids : ((requests acts).map Provider.Request.id).Nodup)
    (hx : ((start p s).afterAll acts).proxy? m.interface = some x)
    (hr : x.table.route? m.signature = some r) (htarget : r.target = .balanced .roundRobin) :
    (∀ before att after, (start p s).attempts m acts = before ++ att :: after →
      let c := before.countP fun b => populated b.view
      let members := dataMembers att.view
      c < 2 ^ 64 → att.target = members[c % members.length]?) ∧
    ∀ (s' : Substrate) (acts' : List Act), ((requests acts').map Provider.Request.id).Nodup →
      (∀ x', ((start p s').afterAll acts').proxy? m.interface = some x' →
        x'.interface = x.interface) →
      ((start p s').attempts m acts').map Attempt.view =
        ((start p s).attempts m acts).map Attempt.view →
      ((start p s').attempts m acts').map Attempt.target =
        ((start p s).attempts m acts).map Attempt.target := by
  have hp := Provider.create_proxies hnew
  have hprovider (s : Substrate) (acts : List Act) :
      ((start p s).afterAll acts).provider = p.afterAll (requests acts) := provider_afterAll ..
  have hturns := targets_eq_turns (settled_afterAll hp hids) (hprovider s acts ▸ hx) hr htarget
    (hprovider s acts) (bound_start ..)
  constructor
  · intro before att after hsplit c members hc
    rw [hsplit] at hturns
    exact target_of_turns hturns hc
  · intro s' acts' hids' hsame hviews
    have hq' := settled_afterAll hp hids'
    rw [proxy?, hprovider] at hx
    cases hx' : ((start p s').afterAll acts').proxy? m.interface with
    | none =>
        rw [proxy?, hprovider] at hx'
        have hnone := attempts_of_unknown hq' hx' (hprovider s' acts') (bound_start ..)
        rw [hnone] at hviews
        rw [hnone, hturns, ← hviews]
        rfl
    | some x' =>
        have hinterface := hsame x' hx'
        rw [proxy?, hprovider] at hx'
        have htable := ((Provider.remembers_afterAll hp _).known _ x hx).2.1
        have htable' := ((Provider.remembers_afterAll hp _).known _ x' hx').2.1
        rw [hinterface, htable, Except.ok.injEq] at htable'
        have hturns' := targets_eq_turns hq' hx' (htable' ▸ hr) htarget (hprovider s' acts')
          (bound_start ..)
        rw [hturns, hturns', hviews]
        rfl

def desk : Interface :=
  .mk "bank::Desk" true [] [⟨"audit", [], [.balanced "round-robin" ⟨none, false⟩]⟩,
    ⟨"close", [], [.balanced "round-robin" ⟨none, false⟩]⟩]

def counters : Substrate := .scripted (.ofList [⟨"a", "x", false⟩, ⟨"b", "y", false⟩]) []

def callDesk (method : String) : Act := .call "bank::Desk" method [] ⟨"f", 1⟩

def audits : List Act :=
  [.request ⟨1, desk⟩, callDesk "audit", .step 0, callDesk "close", .step 1,
    .request ⟨2, .mk "bank::Desk" true [] []⟩, callDesk "audit", .step 2]

def auditsOnly : List Act :=
  [.request ⟨1, desk⟩, callDesk "audit", .step 0, callDesk "audit", .step 1]

def auditing : Endpoint := ⟨"bank::Desk", ⟨"audit", []⟩⟩

def deskRoute (method : String) : Route :=
  ⟨⟨method, []⟩, .balanced .roundRobin, .ofMillis 60000, false⟩

def deskProxy : Proxy :=
  ⟨1, desk, ⟨"bank::Desk", "Desk", [deskRoute "audit", deskRoute "close"]⟩, "default", .standard,
    .scatter⟩

theorem round_robin_isolated_audits :
    (∃ first second, (start Provider.bank counters).attempts auditing audits = [first, second] ∧
      second.target = some ⟨"b", "y", false⟩) ∧
      ((start Provider.bank counters).attempts auditing auditsOnly).map Attempt.target =
        ((start Provider.bank counters).attempts auditing audits).map Attempt.target := by
  have hnew : Provider.create .standard {} .builtin .scatter = .ok Provider.bank := rfl
  have hx : ((start Provider.bank counters).afterAll audits).proxy? "bank::Desk" =
      some deskProxy := by with_unfolding_all rfl
  have hx' : ((start Provider.bank counters).afterAll auditsOnly).proxy? "bank::Desk" =
      some deskProxy := by with_unfolding_all rfl
  obtain ⟨hturn, hother⟩ := round_robin_isolated (m := auditing) hnew counters audits (by decide) hx
    (show _ = some (deskRoute "audit") from rfl) rfl
  have hattempts : (start Provider.bank counters).attempts auditing audits =
      [⟨counters.alive, some ⟨"a", "x", false⟩⟩] ++
        ⟨counters.alive, some ⟨"b", "y", false⟩⟩ :: [] := by with_unfolding_all rfl
  have hsecond := hturn _ _ _ hattempts (by decide)
  refine ⟨⟨_, _, hattempts, hsecond.trans (by with_unfolding_all rfl)⟩, ?_⟩
  apply hother counters auditsOnly (by decide)
  · intro x' hfound
    rw [Option.some.inj (hfound.symm.trans hx')]
  · with_unfolding_all rfl

end Client

end Switchboard

import Switchboard.Session.Answer

namespace Switchboard

structure Session where
  traffic : Traffic
  types : TypeRegistry
  policies : PolicyRegistry
  site : CallSite
  hasher : Hasher
  providers : List (String × Provider) := []
  proxies : List (String × Proxy) := []
  built : List (String × RoutingPolicy × PolicyInstance) := []
  pendings : List (String × Pending) := []
  shown : List Nat := []
  issued : Nat := 0

namespace Session

def start (s : Substrate) (types : TypeRegistry) (policies : PolicyRegistry) (site : CallSite)
    (hasher : Hasher := .scatter) : Session where
  traffic := ⟨.start s, []⟩
  types := types
  policies := policies
  site := site
  hasher := hasher

def world (s : Session) : World := s.traffic.world

def now (s : Session) : Nat := s.world.now

def mapWorld (f : World → World) (s : Session) : Session :=
  { s with traffic := { s.traffic with world := f s.world } }

def mapCluster (f : Cluster → Cluster) (s : Session) : Session := s.mapWorld (·.mapCluster f)

def mapRegistry (f : Registry → Registry) (s : Session) : Session := s.mapWorld (·.mapRegistry f)

def proxy? (s : Session) (name : String) : Option Proxy := Keyed.find? name s.proxies

def buildPolicy (s : Session) (name binding : String) : Answer × Session :=
  match s.policies.build name with
  | .error e => (.policy (.error e), s)
  | .ok p =>
      (.policy (.ok p), { s with
        issued := s.issued + 1
        built := Keyed.insert binding (p, .standalone s.issued) s.built })

def choose (p : RoutingPolicy) (i : PolicyInstance) (call : Call) :
    Nat → World → List (Except PolicyError Member) × World
  | 0, w => ([], w)
  | n + 1, w =>
      let (choice, cursor) := p.choose w.alive call (w.cursors.get i)
      let (rest, w) := choose p i call n { w with cursors := w.cursors.set i cursor }
      (choice :: rest, w)

def next (s : Session) (policy : String) (times : Nat) (call : Call) : Answer × Session :=
  match Keyed.find? policy s.built with
  | none => (.nothing, s)
  | some (p, i) =>
      let (picks, w) := choose p i call times s.world
      (.picks picks, s.mapWorld fun _ => w)

def samePolicy (s : Session) (a b : String) : Bool :=
  match Keyed.find? a s.built, Keyed.find? b s.built with
  | some (_, i), some (_, j) => i = j
  | _, _ => false

def createProvider (s : Session) (binding : String) (config : ClientConfig)
    (types : Option TypeRegistry) : Answer × Session :=
  match Provider.create config (types.getD s.types) s.policies s.hasher with
  | .error e => (.provider (.error e), s)
  | .ok p =>
      (.provider (.ok config.slice), { s with providers := Keyed.insert binding p s.providers })

def present (s : Session) (p : Proxy) : Nat × Session :=
  match s.shown.idxOf? p.id with
  | some n => (n + 1, s)
  | none => (s.shown.length + 1, { s with shown := s.shown ++ [p.id] })

def getProxy (s : Session) (provider : String) (i : Interface) (binding : String) :
    Answer × Session :=
  match Keyed.find? provider s.providers with
  | none => (.nothing, s)
  | some known =>
      let (r, known) := known.getProxy (s.issued + 1) i
      let s := { s with
        issued := s.issued + 1
        providers := Keyed.insert provider known s.providers }
      match r with
      | .error e => (.proxy (.error e) known.cached, s)
      | .ok p =>
          let (n, s) := s.present p
          (.proxy (.ok (n, p)) known.cached,
            { s with proxies := Keyed.insert binding p s.proxies })

def compareProxies (s : Session) (a b : String) : Answer :=
  match s.proxy? a, s.proxy? b with
  | some p, some q => .sameProxy ⟨p.id = q.id, p.hashCode = q.hashCode, p.display = q.display⟩
  | _, _ => .nothing

def argument (s : Session) : Argument → Json
  | .value v => v
  | .textOf name => ((s.proxy? name).map fun p => Json.str p.display).getD .null
  | .hashOf name => ((s.proxy? name).map fun p => Json.int p.hashCode.toNat).getD .null

def directInvocation? (s : Session) (c : DirectCall) (args : List Json) : Option Invocation := do
  let (target, policy) ← match c.target with
    | .key spec => some (Target.partitioned spec, PolicyInstance.standalone 0)
    | .policy name => (Keyed.find? name s.built).map fun (p, i) => (Target.balanced p, i)
  return {
    slice := c.slice
    service := c.service
    route := ⟨c.signature, target, c.timeout, c.interrupt⟩
    policy := policy
    args := args
    retry := c.retry
    site := s.site }

inductive Outset where
  | answered (r : Except DispatchError Json)
  | flying (place : Nat)

def launch (s : Session) (i : Invocation) : Outset × Session :=
  let (place, t) := s.traffic.launch i
  (.flying place, { s with traffic := t })

def viaProxy (s : Session) (p : Proxy) (args : List Json) : Proxy.Lookup → Outset × Session
  | .route r => s.launch (p.invocation r args s.site)
  | .answer v => (.answered (.ok v), s)
  | .failure e => (.answered (.error e), s)

structure Started where
  proxy : Option Proxy
  outset : Outset

def begin (s : Session) (r : CallRequest) : Started × Session :=
  let args := r.args.map s.argument
  let unknown := Outset.answered (.ok .null)
  match r.callee with
  | .byName name method =>
      match s.proxy? name with
      | none => (⟨none, unknown⟩, s)
      | some p =>
          let (o, s) := s.viaProxy p args (p.lookup method args)
          (⟨some p, o⟩, s)
  | .bySignature name signature =>
      match s.proxy? name with
      | none => (⟨none, unknown⟩, s)
      | some p =>
          let (o, s) := s.viaProxy p args (p.lookupSignature signature)
          (⟨some p, o⟩, s)
  | .direct c =>
      match s.directInvocation? c args with
      | none => (⟨none, unknown⟩, s)
      | some i =>
          let (o, s) := s.launch i
          (⟨none, o⟩, s)

def Started.places (st : Started) : List Nat :=
  match st.outset with
  | .answered _ => []
  | .flying place => [place]

def reply (s : Session) (p : Option Proxy) : Except DispatchError Json → Reply
  | .error (.remote e) => .failure (.remote e.withoutTaskNumber)
  | .error e => .failure e
  | .ok v =>
      match p with
      | none => .value v
      | some p =>
          let ordinal := (s.present p).1
          if v.asString? = some p.display then .ownText p ordinal
          else if v.asInt? = some (p.hashCode.toNat : Int) then .ownHash ordinal
          else .value v

def outcome (s : Session) (since : Nat) (st : Started) : Reply × Nat :=
  match st.outset with
  | .answered r => (s.reply st.proxy r, 0)
  | .flying place =>
      match (s.traffic.flights[place]?).bind Flight.result? with
      | some (r, tick) => (s.reply st.proxy r, tick - since)
      | none => (.value .null, s.now - since)

def ledger (s : Session) (mark : Nat) : Ledger :=
  ⟨s.world.submissions.drop mark, s.world.interrupted, s.world.consulted⟩

def advanceTo (s : Session) (tick : Nat) : Session :=
  { s with traffic := s.traffic.advanceTo tick }

/-- A rest of any length, even of none, first lets all be done that is to be done now. -/
def rest (s : Session) (ms : Nat) : Session :=
  { s with traffic := s.traffic.settle.advanceTo (s.now + ms) }

def finish (s : Session) (places : List Nat) : Session :=
  { s with traffic := s.traffic.finish places }

def submit (s : Session) (binding : String) (call : Call) (target : Option Member) :
    Answer × Session :=
  let (p, w) := s.world.submit call target
  (.submitted p.isCancellable,
    { s.mapWorld fun _ => w with pendings := Keyed.insert binding p s.pendings })

def await (s : Session) (name : String) (ms : Nat) : Answer × Session :=
  match Keyed.find? name s.pendings with
  | none => (.nothing, s)
  | some p =>
      let (r, p, t) := s.traffic.await p ms
      let s := { s with traffic := t }
      match r with
      | some r =>
          (.result (CallResult.reported r), { s with pendings := Keyed.erase name s.pendings })
      | none => (.pending, { s with pendings := Keyed.insert name p s.pendings })

def cancel (s : Session) (name : String) : Answer × Session :=
  match Keyed.find? name s.pendings with
  | none => (.nothing, s)
  | some p =>
      let (ran, w) := s.world.interrupt p
      (.flag ran, { s.mapWorld fun _ => w with
        pendings := Keyed.insert name p.disarm s.pendings })

def withCluster (s : Session) (f : Cluster → Answer × Cluster) : Answer × Session :=
  match s.world.cluster? with
  | none => (.nothing, s)
  | some c =>
      let (a, c) := f c
      (a, s.mapCluster fun _ => c)

def addMember (m : Member) (plans : List (String × ServicePlan)) (c : Cluster) :
    Answer × Cluster :=
  let services := plans.map fun (name, plan) => (name, plan.service m.id)
  match c.addMember m services with
  | .error e => (.refused e, c)
  | .ok c =>
      match Keyed.find? m.id c.seats with
      | some seat => (.joined seat.server, c)
      | none => (.nothing, c)

def removeMember (id : MemberId) (c : Cluster) : Answer × Cluster :=
  match c.removeMember id with
  | .error e => (.clusterFailure e, c)
  | .ok (m, c) => (.left m, c)

def changed (c : Cluster) : Except ClusterError Cluster → Answer × Cluster
  | .error e => (.clusterFailure e, c)
  | .ok c => (.done, c)

def onSeat (id : MemberId) (f : Cluster → Seat → Answer × Cluster) (c : Cluster) :
    Answer × Cluster :=
  match c.latest? id with
  | none => (.nothing, c)
  | some seat => f c seat

def serverReport (id : MemberId) (c : Cluster) : Answer :=
  .server (Keyed.contains id c.seats)
    ((c.latest? id).map fun seat => (seat.server, c.hooksOf seat.number))

def query (c : Cluster) (a : Cluster → Answer) : Answer × Cluster := (a c, c)

mutual

def runStep (s : Session) : Step → Answer × Session
  | .register m => (.nothing, s.mapRegistry (·.register m))
  | .unregister id =>
      (.info (s.world.registry?.bind (·.get? id)), s.mapRegistry (·.unregister id))
  | .updateStatus id st => (.nothing, s.mapRegistry (·.updateStatus id st))
  | .get id => (.info (s.world.registry?.bind (·.get? id)), s)
  | .registry id => (.registry (s.world.registry?.getD .empty) id, s)
  | .policies name => (.policies s.policies name, s)
  | .registerPolicy name p => (.nothing, { s with policies := s.policies.register name p })
  | .buildPolicy name binding => s.buildPolicy name binding
  | .next policy times call => s.next policy times call
  | .samePolicy a b => (.flag (s.samePolicy a b), s)
  | .provider binding config types => s.createProvider binding config types
  | .getProxy provider i binding => s.getProxy provider i binding
  | .sameProxy a b => (s.compareProxies a b, s)
  | .call r first later =>
      let since := s.now
      let mark := s.world.submissions.length
      let (st, s) := s.begin r
      let (early, s) := runSteps s first
      let (late, s) := runLater s since later
      let s := s.finish st.places
      let (reply, elapsed) := s.outcome since st
      (.call reply elapsed (early ++ late) (s.ledger mark), s)
  | .parallel calls later =>
      let since := s.now
      let mark := s.world.submissions.length
      let (started, s) := startAll s calls
      let (late, s) := runPlaced s since later
      let s := s.finish (started.flatMap fun (st, _) => st.places)
      let reports := started.zipIdx.map fun ((st, early), place) =>
        let (reply, elapsed) := s.outcome since st
        (reply, elapsed, early ++ (late.filter (·.1 = place)).flatMap (·.2))
      (.parallel reports (s.ledger mark), s)
  | .submit binding call target => s.submit binding call target
  | .await name ms => s.await name ms
  | .cancel name => s.cancel name
  | .sleep ms => (.nothing, s.rest ms)
  | .addMember m plans => s.withCluster (addMember m plans)
  | .removeMember id => s.withCluster (removeMember id)
  | .rebalance => s.withCluster fun c => (.nothing, c.rebalance)
  | .move p id => s.withCluster fun c => changed c (c.movePartition p id)
  | .ownerOf p => s.withCluster (query · fun c => .owner (c.owner? p))
  | .ownerOfKey none => (.nothing, s)
  | .ownerOfKey (some k) =>
      s.withCluster (query · fun c =>
        .keyOwner (c.partitionFor k) (c.owner? (c.partitionFor k)))
  | .cluster => s.withCluster (query · .cluster)
  | .server id => s.withCluster (query · (serverReport id))
  | .serverStart id => s.withCluster (onSeat id fun c seat => changed c (c.startServer seat))
  | .serverShutdown id => s.withCluster (onSeat id fun c seat => (.nothing, c.shutdownServer seat))
  | .shutdown => s.withCluster fun c => (.nothing, c.shutdown)

def runSteps (s : Session) : List Step → List Answer × Session
  | [] => ([], s)
  | step :: rest =>
      let (a, s) := runStep s step
      let (as, s) := runSteps s rest
      (a :: as, s)

def runLater (s : Session) (since : Nat) : List (Nat × List Step) → List Answer × Session
  | [] => ([], s)
  | (time, steps) :: rest =>
      let (as, s) := runSteps (s.advanceTo (since + time)) steps
      let (bs, s) := runLater s since rest
      (as ++ bs, s)

def runPlaced (s : Session) (since : Nat) :
    List (Nat × Nat × List Step) → List (Nat × List Answer) × Session
  | [] => ([], s)
  | (time, place, steps) :: rest =>
      let (as, s) := runSteps (s.advanceTo (since + time)) steps
      let (bs, s) := runPlaced s since rest
      ((place, as) :: bs, s)

def startAll (s : Session) :
    List (CallRequest × List Step) → List (Started × List Answer) × Session
  | [] => ([], s)
  | (r, first) :: rest =>
      let (st, s) := s.begin r
      let (early, s) := runSteps s first
      let (others, s) := startAll s rest
      ((st, early) :: others, s)

end

def run (s : Session) (steps : List Step) : List Answer := (runSteps s steps).1

end Session

end Switchboard

import Tenancy.Control.Loop
import Tenancy.Deployment.Logic
import Tenancy.Fanout
import Tenancy.Organization.Logic
import Tenancy.Registry
import Tenancy.Store.Disturbed

/-!
The cluster: the stores of both kinds, those who watch them, and the control loops. What happens in
it happens in small steps: a call of a client, a change that a loop takes in, a timer that goes off,
or the next question of a pass.
-/

namespace Tenancy

structure Side (S : Type) where
  store : Disturbed S
  /-- Paces the passes that no loop makes. -/
  pacer : Pacer
  watchers : List (Feed S)
  loop : Option (Loop S)
  /-- Loops that failed at their launch and were replaced; nothing ends their feeds. -/
  strays : List (Loop S)

structure Cluster where
  orgs : Side OrganizationSpec
  deps : Side DeploymentSpec
  settings : Settings
  timing : Timing
  now : Nat
  clock : Instant
  created : Nat
  rank : Nat
  base : Uid
  signal : Bool

class Hosted (S : Type) extends ResourceKind S where
  noun : String
  side : Cluster → Side S
  setSide : Cluster → Side S → Cluster
  logic : Logic S
  relays : Cluster → List (Feed S)
  setRelays : (Feed S → Feed S) → Cluster → Cluster

instance : Hosted OrganizationSpec where
  noun := "organization"
  side := Cluster.orgs
  setSide s orgs := { s with orgs }
  logic := Organization.logic
  relays s := (s.deps.strays ++ s.deps.loop.toList).filterMap (·.related)
  setRelays f s :=
    let relay (l : Loop DeploymentSpec) := { l with related := l.related.map f }
    { s with deps := { s.deps with
      loop := s.deps.loop.map relay, strays := s.deps.strays.map relay } }

instance : Hosted DeploymentSpec where
  noun := "deployment"
  side := Cluster.deps
  setSide s deps := { s with deps }
  logic := Deployment.logic
  relays _ := []
  setRelays _ s := s

namespace Cluster

def start (settings : Settings) (clock : Instant) (base : Uid) : Cluster :=
  let pacer := Pacer.new settings.threshold settings.shortWait settings.steadyWait
  ⟨⟨.empty, pacer, [], none, []⟩, ⟨.empty, pacer, [], none, []⟩, settings, .native, 0, clock,
    0, 0, base, false⟩

variable {S : Type} [Hosted S]

def onSide (s : Cluster) (f : Side S → Side S) : Cluster := Hosted.setSide s (f (Hosted.side s))

def onLoop (s : Cluster) (f : Loop S → Loop S) : Cluster :=
  s.onSide fun (d : Side S) => { d with loop := d.loop.map f }

def loop? (S : Type) [Hosted S] (s : Cluster) : Option (Loop S) := (Hosted.side s).loop

def store (S : Type) [Hosted S] (s : Cluster) : Store S := (Hosted.side (S := S) s).store.store

/-! ### Changes -/

/-- Every open feed of a kind, those of loops that read it as a related one last. -/
def onFeeds (s : Cluster) (f : Feed S → Feed S) : Cluster :=
  let own (l : Loop S) := { l with own := f l.own }
  Hosted.setRelays f (s.onSide fun (d : Side S) =>
    { d with
      watchers := d.watchers.map f, loop := d.loop.map own, strays := d.strays.map own })

def publish (s : Cluster) (c : Change S) : Cluster := s.onFeeds (·.publish c)

def publishAll (s : Cluster) (cs : List (Change S)) : Cluster := cs.foldl publish s

def watch (s : Cluster) (S : Type) [Hosted S] : Nat × Cluster :=
  ((Hosted.side (S := S) s).watchers.length,
    s.onSide fun (d : Side S) => { d with watchers := d.watchers ++ [.open_ false] })

def drain (s : Cluster) (S : Type) [Hosted S] (watcher : Nat) : List (Change S) × Cluster :=
  match (Hosted.side (S := S) s).watchers[watcher]? with
  | none => ([], s)
  | some f =>
    (f.backlog, s.onSide fun (d : Side S) =>
      { d with watchers := d.watchers.set watcher { f with backlog := [] } })

/-! ### Stores -/

def setStore (s : Cluster) (store : Disturbed S) : Cluster :=
  s.onSide fun (d : Side S) => { d with store }

def call {α : Type} (s : Cluster) (run : Disturbed S → Called S α) :
    Except StoreError α × Cluster :=
  let c := run (Hosted.side s).store
  (c.answer, (s.setStore c.after).publishAll c.changes)

def write {α : Type} (s : Cluster) (run : Store S → Written S α) : Except StoreError α × Cluster :=
  s.call fun d =>
    let w := run d.store
    ⟨w.answer, { d with store := w.store }, w.change.toList⟩

def uid (s : Cluster) : Uid := ⟨s.base.bits + BitVec.ofNat 128 (s.created + 1)⟩

def create (s : Cluster) (o : Resource S) : Except StoreError (Resource S) × Cluster :=
  let (r, t) := s.write fun st => st.create s.uid o
  match r with
  | .ok o => (.ok o, { t with created := t.created + 1 })
  | .error e => (.error e, t)

def delete (s : Cluster) (S : Type) [Hosted S] (key : Key) : Except StoreError Unit × Cluster :=
  s.write fun (st : Store S) => st.delete s.clock key

def get (s : Cluster) (S : Type) [Hosted S] (key : Key) :
    Except StoreError (Resource S) × Cluster :=
  s.call (·.get s.clock key)

def list (s : Cluster) (S : Type) [Hosted S] : Except StoreError (List (Resource S)) × Cluster :=
  s.call (·.list s.clock)

def update (s : Cluster) (o : Resource S) : Except StoreError (Resource S) × Cluster :=
  s.call (·.update s.clock o)

def updateStatus (s : Cluster) (o : Resource S) : Except StoreError (Resource S) × Cluster :=
  s.call (·.updateStatus s.clock o)

def disturb (s : Cluster) (S : Type) [Hosted S] (m : Method) (d : Disturbance) : Cluster :=
  s.onSide fun (side : Side S) =>
    { side with store := { side.store with plan := side.store.plan ++ [(m, d)] } }

/-! ### Questions of passes -/

/-- Paces a pass: by the loop that makes it, or by the side. -/
def paced (s : Cluster) (S : Type) [Hosted S] (byLoop : Bool) (f : Pacer → Pacer) : Cluster :=
  if byLoop then s.onLoop fun (l : Loop S) => { l with pacer := f l.pacer }
  else s.onSide fun (d : Side S) => { d with pacer := f d.pacer }

def pacer (s : Cluster) (S : Type) [Hosted S] (byLoop : Bool) : Pacer :=
  let d := Hosted.side (S := S) s
  if byLoop then (d.loop.map (·.pacer)).getD d.pacer else d.pacer

/-- Answers a question at once; to sleep takes no time here. -/
def answer (s : Cluster) (byLoop : Bool) : (q : Request S) → q.Answer × Cluster
  | .get key => s.get S key
  | .update o => s.update o
  | .updateStatus o => s.updateStatus o
  | .clock => (s.clock, s)
  | .logic .organizations => s.list OrganizationSpec
  | .logic (.nextDelay identity) =>
    (((s.pacer S byLoop).nextDelay identity).1,
      s.paced S byLoop fun p => (p.nextDelay identity).2)
  | .logic (.forget identity) => ((), s.paced S byLoop (·.forget identity))
  | .logic (.sleep _) | .logic (.entered _) => ((), s)

/-! ### Loops -/

/-- Sets up a loop for a kind, which is launched later. A loop that was there is replaced. -/
def addLoop (s : Cluster) (S : Type) [Hosted S] (byHand withRelated : Bool) : Cluster :=
  s.onSide fun (d : Side S) =>
    { d with
      loop := some (.new s.settings s.timing Hosted.logic byHand withRelated)
      strays := d.strays ++ d.loop.toList.filter (·.listens) }

def launch (s : Cluster) (S : Type) [Hosted S] : Cluster :=
  let (r, s) := s.list S
  s.onLoop fun (l : Loop S) => l.launch r

def halt (s : Cluster) (S : Type) [Hosted S] : Cluster := s.onLoop fun (l : Loop S) => l.halt

def takeOwn (s : Cluster) (S : Type) [Hosted S] : Cluster := s.onLoop fun (l : Loop S) => l.readOwn

/-- A loop of deployments takes in the oldest change of an organization, once it has queued the keys
that the one before concerned. If the deployments cannot be listed the change is lost. -/
def relate (s : Cluster) (l : Loop DeploymentSpec) : Loop DeploymentSpec × Cluster :=
  if l.concerned.isEmpty then
    match l.related.map Feed.take with
    | none => (l, s)
    | some (c, related) =>
      let l := { l with related := some related }
      if c.any (·.generationChanged) then
        match s.list DeploymentSpec with
        | (.ok ds, s) => ({ l with concerned := c.elim [] (Fanout.keys ds) }, s)
        | (.error _, s) => (l, s)
      else (l, s)
  else (l.enqueueConcerned, s)

def takeRelated (s : Cluster) : Cluster :=
  match s.deps.loop with
  | none => s
  | some l =>
    let (l, s) := s.relate l
    s.onLoop fun (_ : Loop DeploymentSpec) => l

/-- The changes of organizations reach a loop that was replaced, too. -/
def takeStray (s : Cluster) (id : Nat) : Cluster :=
  match s.deps.strays[id]? with
  | none => s
  | some l =>
    let (l, s) := s.relate l
    { s with deps := { s.deps with strays := s.deps.strays.set id l } }

def fire (s : Cluster) (S : Type) [Hosted S] (t : Timer) : Cluster :=
  s.onLoop fun (l : Loop S) => l.fire t

def beginPass (s : Cluster) (l : Loop S) (k : Key) : Worker S :=
  .working k (Pass.run l.logic .inStore l.settings.shortWait k)
    (s.now + l.timing.wait s.now l.settings.reconcileTimeout)

def expired (l : Loop S) : Pass S Outcome := .done (.error (.timeout l.settings.reconcileTimeout))

/-- What a worker does after one question of its pass. A pass that is suspended ends if its deadline
has come: in a sleep, unless that takes no time, and in the question for the pace. -/
def asked (s : Cluster) (l : Loop S) (key : Key) (deadline : Nat) :
    (q : Request S) → (q.Answer → Pass S Outcome) → Worker S × Cluster
  | .logic (.sleep d), next =>
    if d.nanos = 0 then (.working key (next ()) deadline, s)
    else (.asleep key (next ()) (s.now + l.timing.wait s.now d) deadline, s)
  | .logic (.nextDelay identity), next =>
    let (a, t) := s.answer true (Request.logic (S := S) (.nextDelay identity))
    (.working key (if deadline ≤ s.now then expired l else next a) deadline, t)
  | q, next =>
    let (a, t) := s.answer true q
    (.working key (next a) deadline, t)

/-- The next step of a worker: to look for a key, to ask the next question of its pass, to go on
after a sleep, or to end the pass. -/
def work (s : Cluster) (S : Type) [Hosted S] (id : Nat) : Cluster :=
  match s.loop? S with
  | none => s
  | some l =>
    match l.workers[id]? with
    | none | some .ended => s
    | some .free =>
      let (r, lobby) := l.lobby.pop id
      s.onLoop fun _ => { l with lobby }.looked id (s.beginPass l) r
    | some .waiting =>
      if l.rung id then
        let (r, lobby) := l.lobby.resume id
        s.onLoop fun _ => { l with lobby }.looked id (s.beginPass l) r
      else s
    | some (.asleep key rest wake deadline) =>
      if wake ≤ s.now then s.onLoop fun (l : Loop S) => l.setWorker id (.working key rest deadline)
      else if deadline ≤ s.now then
        s.onLoop fun (l : Loop S) => l.setWorker id (.working key (expired l) deadline)
      else s
    | some (.working key (.done r) _) =>
      { s with rank := s.rank + 1 }.onLoop fun _ => l.finish id s.now s.rank key r
    | some (.working key (.ask q next) deadline) =>
      let (w, t) := s.asked l key deadline q next
      t.onLoop fun (l : Loop S) => l.setWorker id w

end Cluster
end Tenancy

import Webshell.QueueStream

/-!
# The queue broker

All the streams of one connection and the one writer that empties them. The
writer sleeps on `wake`, a channel of one slot, and passes over the registered
streams until a pass has written nothing.
-/

namespace Webshell

/-- A stream that was started, with the pane it was started for. -/
structure BrokerStream where
  paneID : String
  run : QueueRun
  deriving DecidableEq

/-- Where `RunWriter` is. Streams are named by the order of their starts. -/
inductive QueueWriter
  /-- Receiving from `wake`. -/
  | blocked
  /-- At the head of its loop, before `streamSnapshot`. -/
  | snapshot
  /-- Between two streams of a pass. -/
  | pass (todo : List Nat) (wrote : Bool)
  /-- In a turn of the stream. -/
  | turn (stream : Nat) (todo : List Nat) (wrote : Bool)
  deriving DecidableEq

structure QueueBroker where
  streams : List BrokerStream := []
  /-- The streams in the broker's map. -/
  registered : List Nat := []
  wake : Bool := false
  writer : QueueWriter := .blocked
  deriving DecidableEq

namespace QueueRun

/-- Whether the step sends on `wake`. -/
def signals (q : QueueRun) : QueueEvent → Bool
  | .readerStep => q.reader.head? = some .signalWriter
  | .controlStep thread => (q.controls[thread]?.bind List.head?) = some .signalWriter
  | _ => false

end QueueRun

/-- A step of a stream that is part of a step of the broker: the writer's, and the registration. -/
def QueueEvent.ofBroker : QueueEvent → Bool
  | .beginTurn | .pop _ | .finishTurn | .notify | .registered => true
  | _ => false

inductive BrokerEvent
  /-- A step of a stream by itself. -/
  | stream (i : Nat) (event : QueueEvent)
  | startPaneStream (paneID : String) (flowControl : FlowControl) (replayBurstLimitBytes priority : Int)
  /-- `ReplaceSubscriptions` puts a started stream in the map, or stops it if its pane has one. -/
  | register (i : Nat)
  /-- `ReplaceSubscriptions` or `Close` takes a stream from the map. -/
  | unregister (i : Nat)
  | receive
  /-- `streamSnapshot`; the order depends on priorities that may change while it sorts. -/
  | streamSnapshot (order : List Nat)
  /-- `targetSequence` of the next stream of the pass. -/
  | visit
  | pop (timeUp : Bool)
  | finishTurn
  | notify
  /-- The end of a pass. -/
  | endPass

namespace QueueBroker

def setRun (b : QueueBroker) (i : Nat) (run : QueueRun) : QueueBroker :=
  { b with streams := b.streams.modify i fun c => { c with run := run } }

def streamStep (b : QueueBroker) (i : Nat) (e : QueueEvent) : Option QueueBroker :=
  match b.streams[i]? with
  | none => none
  | some c =>
    if e.ofBroker = true then none
    else (queueMachine.step c.run e).map fun run => { b.setRun i run with wake := b.wake || c.run.signals e }

def register (b : QueueBroker) (i : Nat) : Option QueueBroker :=
  match b.streams[i]? with
  | none => none
  | some c =>
    if i ∈ b.registered then none
    else if ∃ j ∈ b.registered, (b.streams[j]?.map BrokerStream.paneID) = some c.paneID then
      (queueMachine.step c.run .deactivate).map fun run => b.setRun i run
    else
      (queueMachine.step c.run .registered).map fun run =>
        { b.setRun i run with registered := b.registered ++ [i] }

def visit (b : QueueBroker) : Option QueueBroker :=
  match b.writer with
  | .pass (i :: todo) wrote =>
    match b.streams[i]? with
    | none => none
    | some c =>
      (queueMachine.step c.run .beginTurn).map fun run =>
        { b.setRun i run with writer := if run.turn = none then .pass todo wrote else .turn i todo wrote }
  | _ => none

def pop (b : QueueBroker) (timeUp : Bool) : Option QueueBroker :=
  match b.writer with
  | .turn i todo wrote =>
    match b.streams[i]? with
    | none => none
    | some c =>
      (queueMachine.step c.run (.pop timeUp)).map fun run =>
        { b.setRun i run with writer := .turn i todo (wrote || decide (c.run.popped.length < run.popped.length)) }
  | _ => none

/-- The end of a turn, in one or two steps: `finishTurn`, and the notification it asks for. -/
def endTurn (b : QueueBroker) (e : QueueEvent) : Option QueueBroker :=
  match b.writer with
  | .turn i todo wrote =>
    match b.streams[i]? with
    | none => none
    | some c =>
      (queueMachine.step c.run e).map fun run =>
        { b.setRun i run with writer := if run.turn = none then .pass todo wrote else .turn i todo wrote }
  | _ => none

end QueueBroker

def brokerMachine : Machine QueueBroker BrokerEvent where
  step b
    | .stream i e => b.streamStep i e
    | .startPaneStream paneID flowControl limitBytes priority =>
      some { b with streams := b.streams ++ [{ paneID := paneID, run := .start flowControl limitBytes priority }] }
    | .register i => b.register i
    | .unregister i => some { b with registered := b.registered.erase i }
    | .receive =>
      if b.writer = .blocked ∧ b.wake = true then some { b with wake := false, writer := .snapshot } else none
    | .streamSnapshot order =>
      if b.writer = .snapshot ∧ order.Perm b.registered then some { b with writer := .pass order false } else none
    | .visit => b.visit
    | .pop timeUp => b.pop timeUp
    | .finishTurn => b.endTurn .finishTurn
    | .notify => b.endTurn .notify
    | .endPass =>
      match b.writer with
      | .pass [] wrote => some { b with writer := if wrote = true then .snapshot else .blocked }
      | _ => none

end Webshell

import Roomcast.Registry.Puller

/-!
# Closing

A closer retires an entry, closes its window and waits for its puller. A shutdown forbids
subscriptions, takes all entries out of the registry and closes each one; then it waits for the
closers of entries that were reclaimed before.
-/

namespace Roomcast.Registry

/-- What a closer does with the lock of its entry: it retires the entry and takes the puller. -/
def retire (r : Registry) (i entry : Nat) (e : Entry) : Registry :=
  let r := r.modifyEntry entry fun e => { e with retired := true, puller := none }
  (r.release entry (.closer i)).setCloser i (.stopping e.puller)

/-- The next step of a closer, if it can go on. -/
def stepCloser? (r : Registry) (i : Nat) : Option Registry :=
  match r.closers[i]? with
  | none => none
  | some c =>
    match c.phase with
    | .arriving => some ((r.enqueue c.entry (.closer i)).setCloser i .queued)
    | .queued =>
      if r.holds c.entry (.closer i) then (r.entries[c.entry]?).map (r.retire i c.entry) else none
    | .stopping puller =>
      let r := match r.streamOf? c.entry with
        | some stream => r.modifyRoom stream Room.close
        | none => r
      some (r.setCloser i (.joining puller))
    | .joining none => some (r.setCloser i .done)
    | .joining (some stream) =>
      if r.pullerEnded stream then some (r.setCloser i .done) else none
    | .done => none

def addClosers (r : Registry) (entries : List Nat) : Registry :=
  { r with closers := r.closers ++ (entries.map fun entry => ⟨entry, .arriving⟩).toArray }

def closerDone (r : Registry) (i : Nat) : Bool :=
  (r.closers[i]?).any fun c =>
    match c.phase with
    | .done => true
    | _ => false

def shutdown (r : Registry) : Registry :=
  { r with shutdowns := r.shutdowns.push .starting }

/-- The next step of a shutdown, if it can go on. -/
def stepShutdown? (r : Registry) (i : Nat) : Option Registry :=
  match r.shutdowns[i]? with
  | none => none
  | some .starting => some ({ r with down := true }.setShutdown i .draining)
  | some .draining =>
    let entries := r.registered.map (·.2)
    let closers := (List.range entries.length).map (r.closers.size + ·)
    some (({ r with registered := [] }.addClosers entries).setShutdown i (.closing closers))
  | some (.closing closers) =>
    if closers.all r.closerDone then some (r.setShutdown i .taking) else none
  | some .taking => some ({ r with reclaims := [] }.setShutdown i (.joining r.reclaims))
  | some (.joining closers) =>
    if closers.all r.closerDone then some (r.setShutdown i .done) else none
  | some .done => none

def shutdownDone (r : Registry) (i : Nat) : Bool :=
  match r.shutdowns[i]? with
  | some .done => true
  | _ => false

end Roomcast.Registry

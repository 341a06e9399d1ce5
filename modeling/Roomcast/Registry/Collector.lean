import Roomcast.Registry.Closer

/-!
# Collecting

A collector notes the entries without readers, waits for its period to pass, and reclaims those it
has noted that still have no readers. An entry is spared if it is no longer the registered one, if
somebody has its lock, or if it is retired already. When the collector is told to end it shuts the
registry down.
-/

namespace Roomcast.Registry

def collect (r : Registry) (period : Nat) (cancelled : Bool) : Registry :=
  { r with collectors := r.collectors.push ⟨period, cancelled, .checking⟩ }

def cancelCollector (r : Registry) (i : Nat) : Registry :=
  { r with collectors := r.collectors.modify i fun c => { c with cancelled := true } }

def idle (r : Registry) : List Nat := (r.registered.map (·.2)).filter fun e => r.readersOf e = 0

def reclaimable (r : Registry) (entry : Nat) : Bool :=
  (r.entries[entry]?).any fun e =>
    r.entryOf? e.roomId = some entry && e.lock.isEmpty && !e.retired && r.readersOf entry = 0

/-- Reclaims an entry if it may be: retires it, takes it out of the registry, and has it closed. -/
def reclaim (r : Registry) (entry : Nat) : Registry :=
  match r.entries[entry]? with
  | none => r
  | some e =>
    if r.reclaimable entry then
      let closer := r.closers.size
      let r := (r.modifyEntry entry fun e => { e with retired := true }).unregister e.roomId
      { r.addClosers [entry] with reclaims := r.reclaims ++ [closer] }
    else r

/-- The next step of a collector, if it can go on. -/
def stepCollector? (r : Registry) (i : Nat) : Option Registry :=
  match r.collectors[i]? with
  | none => none
  | some c =>
    match c.phase with
    | .checking =>
      some (r.setCollector i (if r.down then .done (.error .shuttingDown) else .scanning))
    | .scanning => some (r.setCollector i (.sleeping r.idle))
    | .sleeping _ =>
      if c.cancelled then some (r.shutdown.setCollector i (.stopping r.shutdowns.size)) else none
    | .reclaiming candidates => some ((candidates.foldl reclaim r).setCollector i .checking)
    | .stopping shutdown =>
      if r.shutdownDone shutdown then some (r.setCollector i (.done (.ok ()))) else none
    | .done _ => none

def elapsed? (r : Registry) (i : Nat) : Option Registry :=
  match r.collectors[i]? with
  | some { phase := .sleeping candidates, .. } => some (r.setCollector i (.reclaiming candidates))
  | _ => none

end Roomcast.Registry

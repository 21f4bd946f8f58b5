import BuildWatch.Daemon.Server
import BuildWatch.Rehearsal.World

/-!
Rehearsing the daemon in scripted surroundings.
-/

namespace BuildWatch.Rehearsal

open BuildWatch.Files

structure DaemonRehearsal where
  coordinator : Coordinator
  directory : InfoDirectory
  world : World

namespace DaemonRehearsal

def services (rehearsal : DaemonRehearsal) : Services World.Action :=
  Services.create World.files World.runtime rehearsal.directory

def mapWorld (rehearsal : DaemonRehearsal) (change : World → World) : DaemonRehearsal :=
  { rehearsal with world := change rehearsal.world }

def send (rehearsal : DaemonRehearsal) (line : String) : DaemonRehearsal × String :=
  let ((coordinator, reply), world) :=
    (rehearsal.services.handleLine rehearsal.coordinator line).run rehearsal.world
  ({ rehearsal with coordinator := coordinator.takeHistory.1, world := world }, reply)

def advance (rehearsal : DaemonRehearsal) (duration : Nat) : DaemonRehearsal :=
  let (coordinator, world) :=
    (rehearsal.coordinator.advance rehearsal.services.surrounding duration).run rehearsal.world
  { rehearsal with coordinator := coordinator.takeHistory.1, world := world }

def shutdown (rehearsal : DaemonRehearsal) : DaemonRehearsal :=
  { rehearsal with coordinator := rehearsal.coordinator.shutdown }

def serve (rehearsal : DaemonRehearsal) (input : List UInt8) : DaemonRehearsal × Serving :=
  let (serving, world) :=
    (rehearsal.services.serve rehearsal.coordinator input).run rehearsal.world
  ({ rehearsal with coordinator := serving.coordinator, world := world }, serving)

def readFile (rehearsal : DaemonRehearsal) (path : Path) : Option String :=
  ((World.files.readText path).run rehearsal.world).1.toOption

def takeCalls (rehearsal : DaemonRehearsal) : DaemonRehearsal × List (String × String) :=
  let (world, calls) := rehearsal.world.takeCalls
  ({ rehearsal with world := world }, calls)

end DaemonRehearsal

end BuildWatch.Rehearsal

import RandomTables.CommandLine.Options
import RandomTables.Document.Decode
import RandomTables.Outcome.Outline
import RandomTables.Roller.Reroll
import RandomTables.RunLog.Playback
import RandomTables.TableDirectory.Archive
import RandomTables.TableDirectory.Load

/-!
# Carrying out a command

A command lists the tables of a directory, archives them, or rolls one of them and then parts of it
again. It prints, writes to the disk and leaves messages; what it has done stays done when it fails
later on.
-/
namespace RandomTables

/-- How much a message matters. -/
inductive Level where
  | debug
  | info
  | error
  deriving Repr, DecidableEq, Inhabited

def Level.name : Level → Text
  | debug => "DEBUG"
  | info => "INFO"
  | error => "ERROR"

structure Message where
  level : Level
  text : Text
  deriving Repr, DecidableEq, Inhabited

def Message.line (m : Message) : Text := m.level.name ++ " " ++ m.text

/-- What a command has done. -/
structure Console where
  disk : Disk
  lines : Array Text
  messages : List Message
  deriving Inhabited

namespace Console

/-- Nothing has been done. -/
def start (disk : Disk) : Console := ⟨disk, #[], []⟩

def printed (c : Console) : Text := c.lines.toList.flatMap fun line => line ++ "\n"

def print (c : Console) (line : Text) : Console := { c with lines := c.lines.push line }

/-- Leave a message. -/
def note (c : Console) (level : Level) (text : Text) : Console :=
  { c with messages := c.messages ++ [⟨level, text⟩] }

end Console

/-- What makes a command fail outright. It may have been given no directory, or something to draw
from that is no number. -/
inductive CommandFault where
  | roll (fault : RollFault)
  | source (fault : SourceFault)
  | read (fault : ReadFault)
  | disk (fault : DiskFault)
  | replay (fault : FileFault)
  | noDirectory
  | noNumber
  deriving Inhabited

def CommandFault.message : CommandFault → Text
  | roll fault => fault.message
  | source fault => fault.message
  | read fault => fault.message
  | disk fault => fault.message
  | replay fault => fault.message
  | noDirectory => "the table directory is no path"
  | noNumber => "what is drawn from is no number"

/-- How a command ends. -/
inductive Ending where
  | exit (code : Nat)
  | failed (fault : CommandFault)
  deriving Inhabited

namespace Command

/-- Leave an error message and end with a code. -/
def giveUp (c : Console) (code : Nat) (text : Text) : Ending × Console :=
  (.exit code, c.note .error text)

/-- End because of a directory: a disk that refuses makes the command fail, and anything else is
said in an error message. -/
def giveUpOn (fault : DirectoryFault) (c : Console) : Ending × Console :=
  match fault with
  | .disk fault => (.failed (.disk fault), c)
  | fault => giveUp c 1 fault.message

def list (o : Options) (c : Console) : Ending × Console :=
  match o.tables with
  | .hyphens => (.failed .noDirectory, c)
  | .value tables =>
    match TableDirectory.index c.disk tables (o.filters.filterMap Given.value?) with
    | .error fault => giveUpOn fault c
    | .ok entries => (.exit 0, entries.foldl Console.print c)

def archive (o : Options) (output : PathName) (c : Console) : Ending × Console :=
  match o.tables with
  | .hyphens =>
    match c.disk.makeFolders output with
    | (.error fault, disk) => (.failed (.disk fault), { c with disk := disk })
    | (.ok (), disk) => (.failed .noDirectory, { c with disk := disk })
  | .value tables =>
    let (result, disk) := TableDirectory.archive c.disk tables output
    let c := { c with disk := disk }
    match result with
    | .ok () => (.exit 0, c)
    | .error (.retrieve (.directory fault)) => giveUpOn fault c
    | .error (.retrieve (.read fault)) => (.failed (.read fault), c)
    | .error (.disk fault) => (.failed (.disk fault), c)

/-- What a roll draws from: a source, the seed to start from if there is one, and what is shown as
the seed and as the values that are drawn. -/
structure Draws where
  source : Source
  first : Option Int
  shown : SavedReplay

namespace Draws

/-- The draws of the seed that is asked for, or of a fresh one. Without a seed nothing can be drawn,
and an empty list is shown for it. -/
def seeded (seed : Option (Given Int)) (fresh : Int) : Draws :=
  match seed with
  | none => ⟨SplitMix.source, some fresh, ⟨.int fresh, #[]⟩⟩
  | some (.value seed) => ⟨SplitMix.source, some seed, ⟨.int seed, #[]⟩⟩
  | some .hyphens => ⟨SplitMix.source, none, ⟨.list [], #[]⟩⟩

/-- The draws of a replay, which count from the start of its record. -/
def replayed (r : SavedReplay) : Draws := ⟨r.replay.source, some 0, r⟩

/-- The draw can be made. -/
def answers (d : Draws) (q : Request) : Bool := d.first.isSome && d.shown.answers q

end Draws

def drawsOf (o : Options) (fresh : Int) (disk : Disk) : Except CommandFault Draws :=
  match o.replay.bind Given.value? with
  | none => .ok (.seeded o.seed fresh)
  | some file =>
    match disk.readText file with
    | .error fault => .error (.read fault)
    | .ok text =>
      match SavedReplay.read text with
      | .error fault => .error (.replay fault)
      | .ok r => .ok (.replayed r)

/-- A roll that is under way: the outcome so far, the next seed and the log. -/
structure Progress where
  node : Node
  seed : Int
  log : RunLog

/-- Why a roll comes to an end too early. -/
inductive HaltCause where
  | roll (fault : RollFault)
  | reroll (fault : RerollFault)
  | noNumber

/-- Why a roll comes to an end too early, and the log at that point. -/
structure Halt where
  cause : HaltCause
  log : RunLog

/-- Roll on with a seed and a log, up to the first draw that cannot be made. -/
def advance (now : Timestamp) (draws : Draws) (seed : Int) (log : RunLog) (roll : Roll Node) :
    Except Halt Progress :=
  let (result, s) := roll.runFrom (.start now seed log)
  match s.requests.toList.findIdx? (!draws.answers ·), result with
  | some failing, _ => .error ⟨.noNumber, s.log.beforeDraw log.events.size failing⟩
  | none, .ok node => .ok ⟨node, s.seed, s.log⟩
  | none, .error fault => .error ⟨.roll fault, s.log⟩

/-- Roll parts of an outcome again in order, and print each result. -/
def rerollAll (now : Timestamp) (r : Roller) (draws : Draws) (p : Progress) (c : Console) :
    List IndexPath → Except Halt Progress × Console
  | [] => (.ok p, c)
  | path :: rest =>
    match r.reroll path p.node .root with
    | .error fault => (.error ⟨.reroll fault, p.log⟩, c)
    | .ok roll =>
      match advance now draws p.seed p.log roll with
      | .error halt => (.error halt, c)
      | .ok p =>
        let c := c.print ("\n--- re-rolled " ++ Text.integers path ++ " ---")
        rerollAll now r draws p (c.print p.node.text) rest

/-- Roll the table at a path and then parts of it again. -/
def rollAll (now : Timestamp) (r : Roller) (o : Options) (draws : Draws) (path : Text)
    (c : Console) : Except Halt Progress × Console :=
  let log := { RunLog.empty now with seed := draws.shown.seed }
  match advance now draws (draws.first.getD 0) log (r.resolve "/" .root (.toPath path)) with
  | .error halt => (.error halt, c)
  | .ok p => rerollAll now r draws p (c.print p.node.text) o.rerolls

/-- Leave a message for every event, if that is asked for. -/
def noteEvents (o : Options) (log : SavedLog) (c : Console) : Console :=
  if o.verbose then
    let lines := log.events.toList.filterMap fun e => e.line.toOption
    lines.foldl (fun c line => c.note .debug line) c
  else c

def saveLog (o : Options) (log : SavedLog) (c : Console) : Ending × Console :=
  match o.saveLog.bind Given.value? with
  | none => (.exit 0, c)
  | some file =>
    match c.disk.writeText file log.save with
    | .error fault => (.failed (.disk fault), c)
    | .ok disk => (.exit 0, { c with disk := disk })

/-- Print and save what is asked for about a finished roll. -/
def report (o : Options) (draws : Draws) (p : Progress) (log : SavedLog) (c : Console) :
    Ending × Console :=
  let c := if o.tree then (c.print "").print (p.node.outline 0) else c
  let seed := draws.shown.seed.display
  let next := if draws.first.isSome then Text.integer p.seed else seed
  let c := c.note .info ("Seed " ++ seed ++ "; next seed " ++ next)
  let c := if o.showLog then (c.print "").print ((log.format [] 0).toOption.getD []) else c
  saveLog o log c

def rollPath (now : Timestamp) (fresh : Int) (registry : Registry) (o : Options) (path : Text)
    (c : Console) : Ending × Console :=
  match drawsOf o fresh c.disk with
  | .error fault => (.failed fault, c)
  | .ok draws =>
    match rollAll now ⟨registry, draws.source, Roller.usualDepth⟩ o draws path c with
    | (.error halt, c) =>
      let c := noteEvents o (draws.shown.savedLog halt.log) c
      match halt.cause with
      | .roll fault => (.failed (.roll fault), c)
      | .reroll fault => giveUp c 1 fault.message
      | .noNumber => (.failed .noNumber, c)
    | (.ok p, c) =>
      let log := draws.shown.savedLog p.log
      report o draws p log (noteEvents o log c)

def roll (now : Timestamp) (fresh : Int) (o : Options) (entry : Text) (c : Console) :
    Ending × Console :=
  match o.tables with
  | .hyphens => (.failed .noDirectory, c)
  | .value tables =>
    match TableDirectory.load c.disk tables "/" with
    | .error (.directory fault) => giveUpOn fault c
    | .error (.source fault) => (.failed (.source fault), c)
    | .ok registry =>
      let path := Path.resolve entry "/" registry.root
      match registry.get? path with
      | none => giveUp c 1 ("No table at " ++ path)
      | some _ => rollPath now fresh registry o path c

/-- Carry out a command at the time `now`; `fresh` is the seed if none is asked for. -/
def run (now : Timestamp) (fresh : Int) (o : Options) (disk : Disk) : Ending × Console :=
  let c := Console.start disk
  if o.list then list o c
  else
    match o.archive.bind Given.value? with
    | some output => archive o output c
    | none =>
      let entry := o.entry.getD ""
      if entry.isEmpty then giveUp c 2 "No table given to roll (use --list to see them)"
      else roll now fresh o entry c

end Command
end RandomTables

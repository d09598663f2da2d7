import DatasetCatalog.Cli.Run
import DatasetCatalog.Plain
import Std.Time.DateTime.Timestamp

/-! # The program

  Runs one command on the files of the machine. What the command can reach is read into a disk
  before it runs, and what it changes is written back when it ends. There is no network: every
  request fails, so a command has only what is in the cache. The place of foreign code is taken by
  plain substitutes.
-/

namespace DatasetCatalog.Cli

/-- A network that answers no request. -/
def offline : Catalog.Transport := fun _ url => .error ⟨url, .failed "no network"⟩

/-! ### Reading -/

/-- What stands at a path of the machine. -/
def nodeAt? (p : Path) : IO (Option Node) := do
  if ← (System.mkFilePath [p.text]).isDir then return some .directory
  try return some (.file (← IO.FS.readBinFile p.text))
  catch _ => return none

/-- Reads what stands at a path and on the way to it. -/
def reach (d : Disk) (p : Path) : IO Disk := do
  let q := p.resolved
  let mut disk := d
  for depth in List.range (q.names.length + 1) do
    let above : Path := ⟨q.slashes, q.names.take depth⟩
    if let some node ← nodeAt? above then
      disk := disk.put above node
  return disk

/-- Reads what stands in a directory. -/
def reachInto (d : Disk) (p : Path) : IO Disk := do
  let mut disk ← reach d p
  if disk.isDirectory p then
    for entry in ← (System.mkFilePath [p.text]).readDir do
      disk ← reach disk (p.child entry.fileName)
  return disk

/-- The files that a command names. -/
def Invocation.files (inv : Invocation) : List Path :=
  inv.settings.toList.map Path.ofText ++ match inv.command with
    | .load _ _ (some text) _ => [Path.ofText text]
    | _ => []

/-- The disk that a command finds. -/
def diskFor (s : Surroundings) (inv : Invocation) : IO Disk := do
  let named ← inv.files.foldlM reach {}
  match (settingsOf s inv).exec { disk := named } with
  | (some (.ok settings), _) => reachInto named settings.cacheRoot
  | _ => return named

/-! ### Writing -/

/-- Writes back what differs between two disks. -/
def writeBack (old new : Disk) : IO Unit := do
  for (p, _) in old.nodes do
    if (new.nodes.lookup p).isNone then IO.FS.removeFile p.text
  for (p, node) in new.nodes do
    if old.nodes.lookup p ≠ some node then
      match node with
      | .directory => IO.FS.createDirAll p.text
      | .file bytes => IO.FS.writeBinFile p.text bytes

/-! ### Running -/

/-- The variables of the environment that settings come from. -/
def environment : IO Environment := do
  let mut found := []
  for (name, _) in Settings.replacements do
    if let some value ← IO.getEnv name then found := found ++ [(name, value)]
  return found

/-- The moment of the machine's clock. -/
def clock : IO Timestamp := do
  return ⟨(← Std.Time.Timestamp.now).toNanosecondsSinceUnixEpoch.val / 1000⟩

/-- Runs an argument list and returns the exit code. -/
def runOnMachine (args : List String) : IO UInt32 := do
  let home := (← IO.getEnv "HOME").map Path.ofText
  let s : Surroundings :=
    { homes := fun name => if name = "~" then home else none, environment := ← environment
      transport := offline, yaml := .plain, libraries := .plain }
  let disk ← match Invocation.ofArguments args with
    | .ok inv => diskFor s inv
    | .error _ => pure {}
  let (result, world) := (run s args).exec { disk, now := ← clock, tick := 0 }
  writeBack disk world.disk
  world.trace.lines.forM fun line => IO.println line
  (toldNotices args world.trace.notices).forM fun n =>
    IO.eprintln (n.severity.name ++ ": " ++ n.message)
  match result with
  | some (.ok code) => return UInt32.ofNat code
  | _ =>
    IO.eprintln "The command failed."
    return 1

end DatasetCatalog.Cli

/-- Runs the command of the argument list. -/
def main (args : List String) : IO UInt32 := DatasetCatalog.Cli.runOnMachine args

import ClassCoverage.CommandLine
import ClassCoverage.Disk.Change
import ClassCoverage.Shell
import Std.Time.DateTime

/-! The program. It takes up the files below the working directory, runs on them, and then carries
out on the files themselves what has changed. Of the directories above it takes up the settings. -/
namespace ClassCoverage.Main

def spellingOf (place : Place) : String := "/" ++ Text.join "/" place

/-- Takes up a file, or a directory with everything below it. -/
partial def takeUp (place : Place) (disk : Disk) (entry : IO.FS.DirEntry) : IO Disk := do
  let place := place ++ [entry.fileName]
  if ← entry.path.isDir then
    let entries ← entry.path.readDir
    entries.foldlM (takeUp place) (disk.setAt (.directory .empty) trivial place)
  else
    return disk.putFile (← IO.FS.readBinFile entry.path).toList place

/-- Takes up the settings files of one directory. -/
def takeUpSettings (disk : Disk) (place : Place) : IO Disk :=
  Settings.fileNames.foldlM (fun disk name => do
    try
      let content ← IO.FS.readBinFile (spellingOf (place ++ [name]))
      return disk.putFile content.toList (place ++ [name])
    catch _ => return disk) disk

/-- The disk as it is seen from the working directory. -/
def takeUpAll : IO Disk := do
  let here ← IO.currentDir
  let place := (here.toString.splitOn "/").filter (· ≠ "")
  let start : Disk := { root := .empty, ordered := trivial, workPlace := place }
  let above ← (List.range place.length).foldlM (fun disk depth => do
    let disk ← takeUpSettings disk (place.take depth)
    return disk.setAt (.directory .empty) trivial (place.take (depth + 1))) start
  (← here.readDir).foldlM (takeUp place) above

def carryOut : Change → IO Unit
  | .removeFile place => IO.FS.removeFile (spellingOf place)
  | .makeDirectory place => IO.FS.createDirAll (spellingOf place)
  | .writeFile place content =>
    IO.FS.writeBinFile (spellingOf place) (ByteArray.mk content.toArray)

def recordFile : Path := ⟨"/tmp/record.json"⟩

def surroundings : IO CommandLine.Surroundings := do
  let now ← Std.Time.Timestamp.now
  return {
    launcher := fun disk => Shell.launcher disk recordFile
    now := now.toMillisecondsSinceUnixEpoch.val }

end ClassCoverage.Main

def main (arguments : List String) : IO UInt32 := do
  let disk ← ClassCoverage.Main.takeUpAll
  let around ← ClassCoverage.Main.surroundings
  let (ending, after) := (ClassCoverage.CommandLine.perform around arguments).run disk
  (disk.root.changesTo after.root).forM ClassCoverage.Main.carryOut
  (← IO.getStdout).putStr ending.output
  (← IO.getStderr).putStr ending.report
  return ending.status.toUInt32

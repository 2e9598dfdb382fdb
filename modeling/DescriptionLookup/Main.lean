import DescriptionLookup.Build.CommandLine

/-!
# The program

The command line on the disk of the machine.
-/

namespace DescriptionLookup

/-- The fault that an operation on the disk of the machine reports. -/
def DiskFault.ofError : IO.Error → DiskFault
  | .noFileOrDirectory _ _ _ => .notFound
  | .alreadyExists _ _ _ => .exists
  | .inappropriateType _ code details =>
    if code = 20 then .notDirectory
    else if code = 21 then .isDirectory
    else .other (details ++ " (os error " ++ toString code ++ ")")
  | error => .other (toString error)

/-- The outcome of an operation on the disk of the machine. -/
def machineAttempt {α : Type} (operation : IO α) : IO (Except DiskFault α) := do
  try
    return .ok (← operation)
  catch error => return .error (.ofError error)

/-- The disk of the machine. What can be read is a file, and what cannot be read for being a
directory is a directory. -/
def machineDisk : Disk IO where
  isFile path := do
    match ← machineAttempt (IO.FS.readBinFile path) with
    | .ok _ => return true
    | .error _ => return false
  isDirectory path := do
    match ← machineAttempt (IO.FS.readBinFile path) with
    | .error .isDirectory => return true
    | _ => return false
  read path := machineAttempt (IO.FS.readBinFile path)
  write path text := machineAttempt (IO.FS.writeFile path text)
  createDirectory path := machineAttempt (IO.FS.createDir path)
  realName? path := do
    match ← machineAttempt (IO.FS.realPath path) with
    | .ok real => return Location.name? real.toString
    | .error _ => return none

end DescriptionLookup

open DescriptionLookup

/-- Runs the program on its arguments. -/
def main (args : List String) : IO UInt32 := do
  let outcome ← CommandLine.run machineDisk args
  (← IO.getStdout).putStr outcome.printed
  (← IO.getStderr).putStr outcome.reported
  return outcome.code.toUInt32

import PackageAlgebra.CommandLine.Reply

/-!
# The program

The files that an invocation needs are read beforehand: first the configuration,
which tells of the others, and then the indexes.
-/

open PackageAlgebra CommandLine

def fileFault : IO.Error → FileError
  | .noFileOrDirectory .. => .notFound
  | .inappropriateType _ 20 _ => .notDirectory
  | .inappropriateType .. => .isDirectory
  | _ => .unreadable

def readFile (path : String) : IO (Except FileError ByteArray) := do
  try
    return .ok (← IO.FS.readBinFile path)
  catch e =>
    return .error (fileFault e)

def readFiles (paths : List String) : IO FileReader := do
  let contents ← paths.mapM fun path => return (path, ← readFile path)
  return fun path => (contents.lookup path).getD (.error .notFound)

def main (arguments : List String) : IO UInt32 := do
  match Invocation.ofArguments? arguments with
  | none =>
    IO.eprintln "Error: mistaken arguments; see --help"
    return 2
  | some invocation =>
    let configs := invocation.stacking.config.toList
    let known ← readFiles configs
    let files ← readFiles (configs ++ invocation.stacking.indexPaths known)
    let reply := invocation.reply files
    IO.print reply.output
    match reply.failure with
    | none => return 0
    | some failure =>
      IO.eprintln s!"Error: {failure.message}"
      return 1

import Gateway.CommandLine

/-! The command. It reads the files that it is told to read, and leaves the rest to the library. -/
namespace Gateway

/-- Put a file into a tree, if it can be read. -/
def readInto (files : FileTree) (path : String) : IO FileTree := do
  try
    let content ← IO.FS.readBinFile path
    return files.put path content.toList
  catch _ => return files

end Gateway

open Gateway in
def main (arguments : List String) : IO UInt32 := do
  let environment ← IO.getEnv "GATEHOUSE_CONF"
  let named := (CommandLine.configurationFile? arguments environment).toList
  let files ← named.foldlM readInto {}
  let more := CommandLine.certificateFiles arguments environment files
  let files ← more.foldlM readInto files
  let result := CommandLine.execute arguments environment files fun _ => false
  IO.print result.output
  return result.exit

import PortablePdb.CommandLine.Command

namespace PortablePdb.CommandLine

/-- The line that tells the version. -/
def versionText : String :=
  "dotpdb 0.1.0\n"

/-- The page of the program. -/
def programPage : List String :=
  ["Command line front end for dotpdb: generate and inspect Portable PDBs",
   "",
   "Usage: dotpdb [OPTIONS] <COMMAND>",
   "",
   "Commands:",
   "  generate  Generate a Portable PDB from an assembly and its decompiled sources",
   "  dump      Print the id, table row counts and documents of a Portable PDB",
   "  info      Display the module summary used for generation",
   "  help      Print this message or the help of the given subcommand(s)",
   "",
   "Options:",
   "      --json        Emit output as JSON instead of human-readable text",
   "  -v, --verbose...  Increase logging output (-v debug, -vv trace)",
   "  -h, --help        Print help",
   "  -V, --version     Print version"]

/-- The page of a command. -/
def Verb.page : Verb → List String
  | .generate =>
    ["Generate a Portable PDB from an assembly and its decompiled sources",
     "",
     "Usage: dotpdb generate [OPTIONS] --decompiled <MANIFEST> <FILE>",
     "",
     "Arguments:",
     "  <FILE>  Path to the .NET assembly file",
     "",
     "Options:",
     "      --decompiled <MANIFEST>  JSON manifest of the decompiled source files",
     "      --json                   Emit output as JSON instead of human-readable text",
     "  -o, --output <PDB>           Output path " ++
       "(defaults to the assembly path with a .pdb extension)",
     "  -v, --verbose...             Increase logging output (-v debug, -vv trace)",
     "      --flat                   Put every source file at the root " ++
       "instead of one directory per",
     "                               namespace",
     "      --sequential             Process the source files on the calling thread",
     "      --threads <N>            Worker threads for parallel processing " ++
       "(defaults to the global pool)",
     "      --require-codeview       Fail if the assembly has no CodeView debug directory entry",
     "      --banner <TEXT>          Comment line prepended to every embedded source file",
     "  -h, --help                   Print help"]
  | .dump =>
    ["Print the id, table row counts and documents of a Portable PDB",
     "",
     "Usage: dotpdb dump [OPTIONS] <PDB>",
     "",
     "Arguments:",
     "  <PDB>  Path to the Portable PDB file",
     "",
     "Options:",
     "      --json        Emit output as JSON instead of human-readable text",
     "      --points      Also print the sequence points of every method",
     "  -v, --verbose...  Increase logging output (-v debug, -vv trace)",
     "  -h, --help        Print help"]
  | .info =>
    ["Display the module summary used for generation",
     "",
     "Usage: dotpdb info [OPTIONS] <FILE>",
     "",
     "Arguments:",
     "  <FILE>  Path to the .NET assembly file",
     "",
     "Options:",
     "      --json        Emit output as JSON instead of human-readable text",
     "  -v, --verbose...  Increase logging output (-v debug, -vv trace)",
     "  -h, --help        Print help"]
  | .help =>
    ["Print this message or the help of the given subcommand(s)",
     "",
     "Usage: dotpdb help [COMMAND]...",
     "",
     "Arguments:",
     "  [COMMAND]...  Print help for the subcommand(s)"]

/-- The text of the page of a command, or of the program. -/
def helpText (verb : Option Verb) : String :=
  String.join (((verb.map Verb.page).getD programPage).map (· ++ "\n"))

end PortablePdb.CommandLine

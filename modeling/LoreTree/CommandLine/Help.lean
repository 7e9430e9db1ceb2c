import LoreTree.CommandLine.Arguments
/-!
The help texts of the command line.
-/

namespace LoreTree.CommandLine

def generalHelp : List String :=
  ["usage: lorebook [-h] \x7bbuild,show\x7d ...",
   "",
   "Build NovelAI lorebooks",
   "",
   "positional arguments:",
   "  \x7bbuild,show\x7d  Command to run",
   "    build       Build and write a lorebook",
   "    show        Print a lorebook's JSON",
   "",
   "options:",
   "  -h, --help    show this help message and exit"]

def buildHelp : List String :=
  ["usage: lorebook build [-h] [--name NAME] [--output-dir OUTPUT_DIR]",
   "                      [--attr ATTR]",
   "                      script",
   "",
   "positional arguments:",
   "  script                Python file defining the lorebook",
   "",
   "options:",
   "  -h, --help            show this help message and exit",
   "  --name NAME           Output name (default: script name)",
   "  --output-dir OUTPUT_DIR",
   "                        Output directory (default: $LOREBOOK_OUTPUT_DIR or",
   "                        cwd)",
   "  --attr ATTR           Name of the BuilderConfig"]

def showHelp : List String :=
  ["usage: lorebook show [-h] [--attr ATTR] script",
   "",
   "positional arguments:",
   "  script       Python file defining the lorebook",
   "",
   "options:",
   "  -h, --help   show this help message and exit",
   "  --attr ATTR  Name of the BuilderConfig"]

def helpFor : Option Command → String
  | none => String.intercalate "\n" generalHelp
  | some .build => String.intercalate "\n" buildHelp
  | some .show => String.intercalate "\n" showHelp

end LoreTree.CommandLine

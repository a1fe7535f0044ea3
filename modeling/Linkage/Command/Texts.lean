/-!
# Command line — fixed texts

The name and version of the command, its usage lines and its help, laid out for eighty columns.
-/

namespace Linkage.Command

/-- The text of `--version`. -/
def versionText : String := "twopass, version 1.0.0\n"

/-- How the command is called. -/
def usageLine : String := "Usage: twopass [OPTIONS] INPUT_FILE\n"

/-- Where help is to be found. -/
def helpLine : String := "Try 'twopass --help' for help.\n"

/-- The text of `--help`. -/
def helpText : String := usageLine ++ "
  Link a relocatable multi-module program.

  INPUT_FILE is the program to link, or - for standard input.

  The program is a stream of alphanumeric tokens; every other character is a
  separator. Each module gives its definitions, its uses and its instructions,
  each preceded by a count.

  Examples:
      twopass input-1.txt                 # Print symbols and memory map
      twopass input-1.txt -o out.map      # Also write the listing
      twopass --modules input-1.txt       # Dump every module

Options:
  -o, --output FILE               Also write the listing to this file
  -s, --symbols FILE              Write the global symbol table to this file
  --modules                       Include a dump of every module in the listing
  --duplicates [error|first|last]
                                  How to treat symbols defined more than once.
                                  Default: error (or TWOPASS_DUPLICATES).
  --machine-size INTEGER RANGE    Number of addressable words. Default: 1000 (or
                                  TWOPASS_MACHINE_SIZE).  [1<=x<=1000]
  -v, --verbose                   Verbose output
  --version                       Show the version and exit.
  --help                          Show this message and exit.
"

end Linkage.Command

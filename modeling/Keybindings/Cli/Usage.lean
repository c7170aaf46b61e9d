import Keybindings.Cli.Arguments

/-!
What is said about the command line itself.
-/

namespace Keybindings.Cli

def helpText : String :=
  "Find and remove keybindings that point at missing commands\n\n" ++
    "Usage: keymap-cleaner [OPTIONS] [COMMAND]\n\n" ++
    "Commands:\n" ++
    "  check [FILE] [--format text|json]  Report invalid keybindings\n" ++
    "  fix [FILE] [--all]                 Delete the first flagged keybinding, or all of them\n" ++
    "  clean [FILE]                       Write the file anew without invalid entries\n" ++
    "  commands [--list]                  Show the known commands\n" ++
    "  config                             Show the effective configuration\n\n" ++
    "Options:\n" ++
    "      --config PATH         Configuration file\n" ++
    "      --commands FILE       JSON snapshot of the editor's command lists\n" ++
    "      --extensions-dir DIR  Directory holding installed extensions (repeatable)\n" ++
    "  -v, --verbose             Enable verbose output\n" ++
    "  -q, --quiet               Minimize output\n" ++
    "      --dry-run             Preview changes without writing them\n" ++
    "      --force               Fix or clean even without the editor's command lists\n" ++
    "  -h, --help                Print help\n" ++
    "  -V, --version             Print version\n"

namespace UsageError

/-- What is said instead of carrying out a command line. -/
def message : UsageError → String
  | unknownArgument => "error: unexpected argument found\n"
  | invalidSubcommand => "error: unrecognized subcommand\n"
  | invalidValue => "error: missing or invalid value for an argument\n"
  | argumentConflict => "error: an argument cannot be used multiple times\n"
  | tooManyValues => "error: unexpected value for a flag\n"
  | displayHelp => helpText
  | displayVersion => "keymap-cleaner 0.1.0\n"

def isAnswer : UsageError → Bool
  | displayHelp | displayVersion => true
  | _ => false

end UsageError

end Keybindings.Cli

import VersionMatch.Text.Basic

/- The pages of help. The first part of a page, its usage, also stands before an error. -/
namespace VersionMatch

inductive Page
  | main
  | check
  | constraints
  | explain
  deriving DecidableEq, Repr

namespace Page

def program : Page → Text
  | .main => "jnlp-version".text
  | .check => "jnlp-version check".text
  | .constraints => "jnlp-version constraints".text
  | .explain => "jnlp-version explain".text

def usage : Page → Text
  | .main =>
    ("usage: jnlp-version [-h] [--verbose] [--format \x7bjson,markdown\x7d]\n" ++
      "                    \x7bcheck,constraints,explain\x7d ...\n").text
  | .check => "usage: jnlp-version check [-h] specification candidates [candidates ...]\n".text
  | .constraints =>
    "usage: jnlp-version constraints [-h] [--file FILE] candidates [candidates ...]\n".text
  | .explain => "usage: jnlp-version explain [-h] specification\n".text

def details : Page → Text
  | .main =>
    ("Command line entrypoint for checking versions against version strings.\n" ++
      "\n" ++
      "positional arguments:\n" ++
      "  \x7bcheck,constraints,explain\x7d\n" ++
      "    check               Check candidates against one version string\n" ++
      "    constraints         Check candidates against a constraints file\n" ++
      "    explain             Print the parsed structure of a version string\n" ++
      "\n" ++
      "options:\n" ++
      "  -h, --help            show this help message and exit\n" ++
      "  --verbose, -v         Enable debug logging\n" ++
      "  --format \x7bjson,markdown\x7d\n" ++
      "                        Output format for check results\n").text
  | .check =>
    ("positional arguments:\n" ++
      "  specification  Version string, e.g. '1.4+ 1.3*'\n" ++
      "  candidates     Concrete version-ids to test\n" ++
      "\n" ++
      "options:\n" ++
      "  -h, --help     show this help message and exit\n").text
  | .constraints =>
    ("positional arguments:\n" ++
      "  candidates   Concrete version-ids to test\n" ++
      "\n" ++
      "options:\n" ++
      "  -h, --help   show this help message and exit\n" ++
      "  --file FILE  Constraints JSON file (defaults to $JNLP_VERSION_CONSTRAINTS or\n" ++
      "               ./constraints.json)\n").text
  | .explain =>
    ("positional arguments:\n" ++
      "  specification  Version string to parse\n" ++
      "\n" ++
      "options:\n" ++
      "  -h, --help     show this help message and exit\n").text

def help (p : Page) : Text := p.usage ++ .char '\n' :: p.details

def error (p : Page) (message : Text) : Text :=
  p.usage ++ p.program ++ ": error: ".text ++ message ++ [.char '\n']

end Page
end VersionMatch

/-!
# Fixed texts

The configuration file that is written on request, and what the program says
about itself.
-/

namespace DocClaims

def programName : String := "claimcheck"

def programVersion : String := "0.1.0"

def textOfLines (lines : List String) : String := String.join (lines.map (· ++ "\n"))

def configTemplate : String :=
  textOfLines
    ["# claimcheck configuration",
      "#",
      "# Every key is optional; omitted keys fall back to the values shown here.",
      "",
      "version: \"1.0\"",
      "",
      "extraction:",
      "  # Elements whose text is read as code rather than prose",
      "  verbatim_tags: [code, pre]",
      "",
      "validation:",
      "  # Default source checkout for \x60claimcheck validate\x60 when none is given",
      "  source_root: null",
      "  # Module directories tried under the source root, in order",
      "  vendor_paths: [vendor/magento, vendor/mage-os, \".\"]",
      "  # A candidate is accepted when it contains this module directory",
      "  marker_module: module-customer",
      "  # Worker threads (0 = available parallelism)",
      "  jobs: 0",
      "",
      "search:",
      "  # Fallback order; a backend is skipped when missing, failing or timing out.",
      "  # Available: ripgrep, grep, walk",
      "  backends: [ripgrep, grep]",
      "  timeout_secs: 10",
      "  source_extensions: [php]",
      "  markup_extensions: [xml]"]

def nextSteps (output : String) : String :=
  textOfLines
    ["Created " ++ output,
      "",
      "Next steps:",
      "  1. Set validation.source_root or pass a source checkout to validate",
      "  2. Run: claimcheck extract docs/architecture.html",
      "  3. Run: claimcheck validate docs/architecture_claims.yaml --config " ++ output]

def versionText : String := textOfLines [programName ++ " " ++ programVersion]

def helpText : String :=
  textOfLines
    ["Documentation claim checker",
      "",
      "Usage: claimcheck [OPTIONS] <COMMAND>",
      "",
      "Commands:",
      "  extract <DOCUMENT> [OUTPUT]                  Extract claims from a documentation page",
      "  validate <CLAIMS> [SOURCE_ROOT] [OUTPUT]     Check extracted claims against a source tree",
      "  init                                         Write a default config file",
      "",
      "Options:",
      "  -v, --verbose          More log output",
      "  -q, --quiet            Only print errors",
      "  -c, --config <CONFIG>  Path to config YAML file",
      "  -h, --help             Print help",
      "  -V, --version          Print version",
      "",
      "Options of validate:",
      "  -f, --format <FORMAT>    Report format: yaml or json",
      "  -j, --jobs <JOBS>        Worker threads",
      "      --backend <BACKEND>  Search backend to use, repeatable, in fallback order",
      "      --strict             Exit with status 1 if any checked claim is not found",
      "",
      "Options of init:",
      "  -o, --output <OUTPUT>  Output file path",
      "      --force            Overwrite an existing file"]

end DocClaims

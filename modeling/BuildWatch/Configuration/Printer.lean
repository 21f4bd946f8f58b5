import BuildWatch.Configuration.Basic
import BuildWatch.Toml.Printer

/-!
Writing a configuration.
-/

namespace BuildWatch.Configuration

def textLine (key value : String) : List Char :=
  key.toList ++ [' ', '=', ' '] ++ Toml.renderString value.toList ++ ['\n']

def numberLine (key : String) (value : UInt64) : List Char :=
  key.toList ++ [' ', '=', ' '] ++ (toString value.toNat).toList ++ ['\n']

def header (name : String) : List Char :=
  '[' :: (name.toList ++ [']', '\n'])

/-- The text of a configuration file that says everything a configuration holds. -/
def text (configuration : Configuration) : String :=
  String.ofList <|
    header "coordinator" ++
    numberLine "debounce_ms" configuration.coordinator.debounceMs ++
    textLine "settings_file" configuration.coordinator.settingsFile ++
    '\n' :: header "projects" ++
    textLine "info_dir" configuration.projects.infoDirectory ++
    '\n' :: header "containers" ++
    textLine "docker_binary" configuration.containers.dockerBinary ++
    textLine "name_prefix" configuration.containers.namePrefix ++
    textLine "network" configuration.containers.network ++
    textLine "build_label" configuration.containers.buildLabel

def exampleText : String :=
  "# pfw configuration\n" ++
  "\n" ++
  "[coordinator]\n" ++
  "# Quiet period (ms) after the last chunk before a partial batch is built\n" ++
  "# Valid range: 10-600000\n" ++
  "debounce_ms = 20000\n" ++
  "settings_file = \".cw-settings\"\n" ++
  "\n" ++
  "[projects]\n" ++
  "# Directory of <projectID>.json project info files\n" ++
  "info_dir = \"/file-watcher/fwdata/projects\"\n" ++
  "\n" ++
  "[containers]\n" ++
  "docker_binary = \"docker\"\n" ++
  "name_prefix = \"mc-\"\n" ++
  "network = \"microclimate_network\"\n" ++
  "build_label = \"builtBy=microclimate\"\n"

end BuildWatch.Configuration

import RunnerKit.Command.Session
import RunnerKit.Settings.Toml.Writer
import RunnerKit.Template.Listing
/-!
This module contains the commands that show something: the templates, the settings and the
completions of a shell.
-/

namespace RunnerKit

namespace Command

def listing (format : ListFormat) (infos : List TemplateInfo) : List Message :=
  match format with
  | .table => .header "Available Templates:" :: (tableRows infos).map .plain
  | .list => infos.map fun info => .data info.id
  | .json => [.data (jsonListing infos)]

/--
The format of a listing. If nobody asks for one it is a table, or JSON where JSON is written anyway.
-/
def listFormat (asked? : Option ListFormat) (format : OutputFormat) : ListFormat :=
  asked?.getD (if format = .json then .json else .table)

variable {m : Type → Type} [Monad m] (s : Session m)

def runList (format? : Option ListFormat) : Task m Unit := do
  s.logAll Store.loadEvents
  let store ← Task.ofExcept Store.withBuiltin
  s.sayAll (listing (listFormat format? s.console.format) store.infos)

def runConfig : ConfigCommand → Task m Unit
  | .get key =>
    match s.settings.get? key with
    | some value => s.say (.data value)
    | none => throw (.config ("Unknown config key: '" ++ key ++ "'") none)
  | .list => s.sayAll [.header "Current Configuration:", .plain s.settings.toToml]
  | .path => s.say (.data (s.globals.config?.getD s.configPath).display)

end Command

end RunnerKit

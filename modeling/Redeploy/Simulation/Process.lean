/-
A whole process: configuration is loaded, logging is set up, and a node is run for the length of a script.
-/
import Redeploy.Bootstrap
import Redeploy.Simulation.Run

namespace Redeploy.Simulation

/-- what comes of a start: a configuration, an error, or nothing -/
abbrev Started := Except Text.Split (Except BootstrapError Config)

structure ProcessReport where
  first : Started
  /-- the same start once more in the same process; it fails, as logging is set up already -/
  second : Option Started := none
  run : Option RunReport := none
  logger : Option Logger := none
  /-- what was logged and not filtered out -/
  written : List Logging.Entry := []

/-- a configuration file -/
structure Source where
  directory : String
  name : String
  text : String

def Source.place (s : Source) : Place := Place.names s.directory ++ [s.name]

/-- the file after something was logged, perhaps to the file itself -/
def Source.after (s : Source) (l : Logger) (entries : List Logging.Entry) : Source :=
  if l.file == some s.place then
    { s with text := entries.foldl (fun t e => t ++ l.written ⟨"", "", ""⟩ e) s.text }
  else s

/-- start a process; `session` is what is then played in a node of the configuration, if anything is -/
def runProcess (storage : Storage) (source : Option Source) (environment : List (String × String))
    (session : Option ((Config → Setup) × List Op)) : ProcessReport :=
  let start (installed : Bool) (source : Option Source) : Start (Config × Logger) :=
    bootstrap storage installed (source.map fun s => Config.readFile .own s.name s.text) environment
  match start false source with
  | .error split => { first := .error split }
  | .ok (.error e) => { first := .ok (.error e) }
  | .ok (.ok (c, logger)) =>
    let played := session.map fun (setup, ops) => run (setup c) ops
    let journal := match played with
      | some (_, some w) => w.journal.toList
      | _ => []
    let opening := [(Logger.greeting c.logging).entry fun _ => ""].filter logger.filter.admits
    { first := .ok (.ok c)
      second := some ((start true (source.map (·.after logger opening))).run.map (·.map Prod.fst))
      run := played.map Prod.fst
      logger := some logger
      written := opening ++ journal.filter logger.filter.admits }

end Redeploy.Simulation

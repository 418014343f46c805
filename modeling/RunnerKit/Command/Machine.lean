import RunnerKit.Command.Host
import RunnerKit.Storage.Disk
/-!
This module contains a system that is a value: a disk, what was written to the channels and to the
log, and the keys that are still to be typed.
-/

namespace RunnerKit

structure Machine where
  disk : Disk := {}
  output : String := ""
  error : String := ""
  /-- the log, with whether each event was written in colours -/
  records : List (Bool × Event) := []
  keys : List Char := []
  bus : Bus.FixedBus := {}
  /-- the calls that were made to the disk -/
  calls : List Call := []

namespace Machine

def write (machine : Machine) (channel : Channel) (text : String) : Machine :=
  match channel with
  | .output => { machine with output := machine.output ++ text }
  | .error => { machine with error := machine.error ++ text }

def attempt (machine : Machine) (call : Call) : Except String Unit × Machine :=
  let (result, disk) := machine.disk.attempt call
  (result.mapError SystemFault.text, { machine with disk, calls := machine.calls ++ [call] })

def onBus {α : Type} (x : StateM Bus.FixedBus α) : StateM Machine α :=
  fun machine =>
    let (a, bus) := x machine.bus
    (a, { machine with bus })

def host (surroundings : Surroundings) : Host (StateM Machine) where
  surroundings := surroundings
  attempt call := fun machine => machine.attempt call
  holds path := return (← get).disk.holds path
  read? path := return (← get).disk.read? path
  write channel text := modify (·.write channel text)
  record coloured event := modify fun machine =>
    { machine with records := machine.records ++ [(coloured, event)] }
  key? := fun machine => (machine.keys.head?, { machine with keys := machine.keys.drop 1 })
  bus := Bus.FixedBus.link.lift onBus

end Machine

end RunnerKit

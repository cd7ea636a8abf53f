import TpmRelay.CommandLine.Arguments
import TpmRelay.Network.Basic

set_option autoImplicit false

namespace TpmRelay.Rehearsal.Program

def surroundings (arguments : CommandLine.Arguments) : Network × Channels Nat :=
  let task := arguments.listening
  let endpoints := [arguments.simulator.control, arguments.simulator.data, task.control, task.data]
  let paths := (endpoints.filter (·.transport = .unix)).map (·.address) ++ arguments.capture.toList
  let files := paths.foldl FileTree.withFolders {}
  let listen (network : Network) (endpoint : Endpoint) : Nat × Network :=
    match network.bind endpoint [] with
    | (.ok (number, _), network) => (number, network)
    | (.error _, network) => (network.backlogs.length, network)
  let (control, network) := listen { files } arguments.simulator.control
  let (data, network) := listen network arguments.simulator.data
  (network, ⟨control, data⟩)

end TpmRelay.Rehearsal.Program

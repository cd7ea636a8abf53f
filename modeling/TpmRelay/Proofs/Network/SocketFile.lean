import TpmRelay.Network.Basic

set_option autoImplicit false

namespace TpmRelay

namespace FileTree

variable {tree : FileTree} {gone location : Location}

theorem node?_without (other : location ≠ gone) :
    (tree.without gone).node? location = tree.node? location := by
  have same : (tree.without gone).nodes.find? (·.location = location) =
      tree.nodes.find? (·.location = location) := by
    simp only [without, List.find?_filter]
    congr 1
    funext node
    by_cases here : node.location = location <;> simp [here, other]
  simp only [node?, same]
  rfl

theorem node?_without_self {node : Node} (found : (tree.without gone).node? gone = some node) :
    node.kind = .directory := by
  have none' : (tree.without gone).nodes.find? (·.location = gone) = none := by
    simp [without]
  simp only [node?, none'] at found
  split at found
  next =>
    obtain rfl := Option.some.inj found
    rfl
  next => cases found

theorem enter_of_node? {tree' : FileTree} {name : String} {onward : Location}
    (same : ∀ node, tree.node? location = some node → node.kind = .directory →
      tree'.node? location = some node)
    (entered : tree.enter location name = .ok onward) : tree'.enter location name = .ok onward := by
  unfold enter at entered
  split at entered
  next => cases entered
  next node found =>
    by_cases directory : node.kind = .directory
    next => simpa [enter, same node found directory, directory] using entered
    next => simp [directory] at entered

theorem locate_of_node? {tree' : FileTree} {path : Path}
    (located : tree.locate path = .ok location)
    (start : tree'.workingDirectory = tree.workingDirectory)
    (same : ∀ location node, tree.node? location = some node → node.kind = .directory →
      tree'.node? location = some node) : tree'.locate path = .ok location := by
  unfold locate at located ⊢
  have first : tree'.start path = tree.start path := by simp only [FileTree.start, start]
  rw [first]
  generalize tree.start path = first, path.names = names at located ⊢
  induction names generalizing first with
  | nil => exact located
  | cons name names ih =>
    rw [List.foldlM_cons] at located ⊢
    cases entered : tree.enter first name with
    | error fault => simp [entered, Bind.bind, Except.bind] at located
    | ok next =>
      rw [entered] at located
      rw [enter_of_node? (same first) entered]
      exact ih next located

theorem locate_without {path : Path}
    (file : ∀ node, tree.node? gone = some node → node.kind ≠ .directory)
    (located : tree.locate path = .ok location) :
    (tree.without gone).locate path = .ok location := by
  refine locate_of_node? located rfl fun other node found directory => ?_
  have elsewhere : other ≠ gone := by
    rintro rfl
    exact file node found directory
  rwa [node?_without elsewhere]

theorem node?_put_self (node : Node) : (tree.put node).node? node.location = some node := by
  have missing : (tree.without node.location).nodes.find? (·.location = node.location) = none := by
    simp [without]
  simp [node?, put, List.find?_append, missing]

theorem node?_put {node : Node} (other : location ≠ node.location) :
    (tree.put node).node? location = tree.node? location := by
  have same : (tree.put node).node? location = (tree.without node.location).node? location := by
    simp [node?, put, without, List.find?_append, other.symm]
  exact same.trans (node?_without other)

theorem put_without (tree : FileTree) (node : Node) :
    (tree.without node.location).put node = tree.put node := by
  simp [put, without]

theorem locate_put {node : Node} {path : Path}
    (file : ∀ old, tree.node? node.location = some old → old.kind ≠ .directory)
    (located : tree.locate path = .ok location) : (tree.put node).locate path = .ok location := by
  refine locate_of_node? located rfl fun other old found directory => ?_
  have elsewhere : other ≠ node.location := by
    rintro rfl
    exact file old found directory
  rwa [node?_put elsewhere]

theorem bind_eq_ok {α β : Type} {first : Except Fault α} {next : α → Except Fault β} {result : β}
    (run : first >>= next = .ok result) : ∃ value, first = .ok value ∧ next value = .ok result := by
  cases first with
  | error => cases run
  | ok value => exact ⟨value, rfl, run⟩

theorem lookUp_eq_ok {text : String} {node : Node} (found : tree.lookUp text = .ok node) :
    ∃ path location, Path.parse text = .ok path ∧ tree.locate path = .ok location ∧
      tree.node? location = some node := by
  obtain ⟨path, parsed, rest⟩ := bind_eq_ok found
  obtain ⟨location, located, rest⟩ := bind_eq_ok rest
  refine ⟨path, location, parsed, located, ?_⟩
  split at rest
  next => cases rest
  next node' there =>
    split at rest
    next => cases rest
    next =>
      cases rest
      exact there

theorem remove_eq_ok {text : String} {left : FileTree} (removed : tree.remove text = .ok left) :
    ∃ node, tree.lookUp text = .ok node ∧ node.kind ≠ .directory ∧
      left = tree.without node.location := by
  obtain ⟨node, found, rest⟩ := bind_eq_ok removed
  refine ⟨node, found, ?_⟩
  dsimp only at rest
  by_cases wanted : (Path.ofText text).wantsDirectory = true
  next =>
    rw [if_pos wanted] at rest
    cases rest
  next =>
    rw [if_neg wanted] at rest
    obtain ⟨_, _, rest⟩ := bind_eq_ok rest
    by_cases directory : node.kind = .directory
    next =>
      rw [if_pos directory] at rest
      cases rest
    next =>
      rw [if_neg directory] at rest
      cases rest
      exact ⟨directory, rfl⟩

theorem location_of_node? {node : Node} (found : tree.node? location = some node) :
    node.location = location := by
  unfold node? at found
  split at found
  next entry there =>
    obtain rfl := Option.some.inj found
    simpa using List.find?_some there
  next =>
    split at found
    next =>
      obtain rfl := Option.some.inj found
      rfl
    next => cases found

theorem find?_of_removed {text : String} {left : FileTree} (removed : tree.remove text = .ok left)
    {node : Node} (found : left.find? text = some node) : node.kind = .directory := by
  obtain ⟨old, there, file, rfl⟩ := remove_eq_ok removed
  obtain ⟨path, location, parsed, located, here⟩ := lookUp_eq_ok there
  have same := location_of_node? here
  subst same
  have only : ∀ node, tree.node? old.location = some node → node.kind ≠ .directory := by
    intro other now
    rw [here] at now
    obtain rfl := Option.some.inj now
    exact file
  cases again : (tree.without old.location).lookUp text with
  | error => simp [find?, again, Except.toOption] at found
  | ok node' =>
    obtain rfl : node' = node := by simpa [find?, again, Except.toOption] using found
    obtain ⟨path', location', parsed', located', now⟩ := lookUp_eq_ok again
    obtain rfl : path = path' := Except.ok.inj (parsed.symm.trans parsed')
    obtain rfl : old.location = location' :=
      Except.ok.inj ((locate_without only located).symm.trans located')
    exact node?_without_self now

theorem parse_eq_ok {text : String} {path : Path} (parsed : Path.parse text = .ok path) :
    path = Path.ofText text := by
  unfold Path.parse at parsed
  split at parsed
  next => cases parsed
  next =>
    split at parsed
    next => cases parsed
    next =>
      split at parsed
      next => cases parsed
      next => exact (Except.ok.inj parsed).symm

theorem create_eq_ok {text : String} {kind : Kind} {mode : UInt32} {made : Location × FileTree}
    (created : tree.create text kind mode = .ok made) :
    ∃ location, Path.parse text = .ok (Path.ofText text) ∧
      tree.locate (Path.ofText text) = .ok location ∧
      (Path.ofText text).wantsDirectory = false ∧ tree.checkFolder location = .ok () ∧
      made.2 = tree.put { location, kind, mode } := by
  obtain ⟨path, parsed, rest⟩ := bind_eq_ok created
  obtain rfl := parse_eq_ok parsed
  obtain ⟨location, located, rest⟩ := bind_eq_ok rest
  refine ⟨location, parsed, located, ?_⟩
  by_cases wanted : (Path.ofText text).wantsDirectory = true
  next =>
    rw [if_pos wanted] at rest
    cases rest
  next =>
    rw [if_neg wanted] at rest
    obtain ⟨⟨⟩, folder, rest⟩ := bind_eq_ok rest
    cases rest
    exact ⟨by simpa using wanted, folder, rfl⟩

theorem names_of_plain {text : String} (plain : (Path.ofText text).wantsDirectory = false) :
    ∃ names name, (Path.ofText text).names = names ++ [name] ∧ name ≠ ".." := by
  unfold Path.ofText at plain ⊢
  generalize (Options.pieces '/' text.toList).map String.ofList = components at plain ⊢
  rcases List.eq_nil_or_concat components with rfl | ⟨earlier, name, rfl⟩
  next => simp at plain
  next =>
    obtain ⟨some', dot, dots⟩ : ¬name = "" ∧ ¬name = "." ∧ ¬name = ".." := by simpa using plain
    exact ⟨earlier.filter fun name => name ≠ "" ∧ name ≠ ".", name, by simp [some', dot], dots⟩

theorem dropLast_ne_of_locate {text : String}
    (located : tree.locate (Path.ofText text) = .ok location)
    (plain : (Path.ofText text).wantsDirectory = false) : location.dropLast ≠ location := by
  obtain ⟨names, name, split, dots⟩ := names_of_plain plain
  unfold locate at located
  rw [split, List.foldlM_append] at located
  obtain ⟨above, _, last⟩ := bind_eq_ok located
  have entered : tree.enter above name = .ok location := by simpa using last
  unfold enter at entered
  split at entered
  next => cases entered
  next =>
    split at entered
    next => cases entered
    next =>
      split at entered
      next => cases entered
      next =>
        obtain rfl := Except.ok.inj entered
        simp [onward, dots]

theorem remove_put {text : String} {node : Node}
    (parsed : Path.parse text = .ok (Path.ofText text))
    (located : tree.locate (Path.ofText text) = .ok node.location)
    (plain : (Path.ofText text).wantsDirectory = false)
    (folder : tree.checkFolder node.location = .ok ())
    (free : ∀ old, tree.node? node.location = some old → old.kind ≠ .directory)
    (file : node.kind ≠ .directory) : ∃ left, (tree.put node).remove text = .ok left := by
  have found : (tree.put node).lookUp text = .ok node := by
    simp only [lookUp, parsed, locate_put free located, node?_put_self, Bind.bind, Except.bind]
    simp [plain, pure, Except.pure]
  have above : (tree.put node).checkFolder node.location = .ok () := by
    rw [checkFolder, node?_put (dropLast_ne_of_locate located plain)]
    exact folder
  refine ⟨(tree.put node).without node.location, ?_⟩
  simp only [remove, found, plain, above, file, Bind.bind, Except.bind]
  simp [pure, Except.pure]

end FileTree

def FileTree.Removable (tree : FileTree) (text : String) : Prop :=
  (tree.find? text).isSome → ∃ left, tree.remove text = .ok left

namespace Network

theorem files_foldl_modify (network : Network) (numbers : List Nat)
    (change : Connection → Connection) :
    (numbers.foldl (fun network number => network.modifyConnection number change) network).files =
      network.files := by
  induction numbers generalizing network with
  | nil => rfl
  | cons number numbers ih => exact ih _

theorem unlisten_leaves_no_socket (network : Network) (number : Nat) {endpoint : Endpoint}
    (unix : endpoint.transport = .unix) (removable : network.files.Removable endpoint.address)
    {node : FileTree.Node}
    (found : (network.unlisten number endpoint).files.find? endpoint.address = some node) :
    node.kind = .directory := by
  have files : (network.unlisten number endpoint).files =
      (network.files.remove endpoint.address).toOption.getD network.files := by
    simp only [unlisten, unix]
    exact files_foldl_modify _ _ _
  rw [files] at found
  cases removed : network.files.remove endpoint.address with
  | ok left =>
    rw [removed] at found
    exact FileTree.find?_of_removed removed found
  | error =>
    rw [removed] at found
    have there := Option.isSome_of_eq_some found
    obtain ⟨left, done⟩ := removable (by simpa [Except.toOption] using there)
    simp [removed] at done

theorem clear_eq_ok {files cleared : FileTree} {text : String}
    (done : clear files text = .ok cleared) :
    files.remove text = .ok cleared ∨
      (∃ message, files.remove text = .error ⟨.notFound, message⟩) ∧ cleared = files := by
  unfold clear at done
  split at done
  next message missing => exact .inr ⟨⟨message, missing⟩, (Except.ok.inj done).symm⟩
  next => exact .inl done

theorem remove_of_clear {files cleared : FileTree} {text : String}
    (done : clear files text = .ok cleared) {kind : FileTree.Kind} {mode : UInt32}
    {made : Location × FileTree} (created : cleared.create text kind mode = .ok made)
    (file : kind ≠ .directory) : ∃ left, made.2.remove text = .ok left := by
  obtain ⟨location, parsed, located, plain, folder, same⟩ := FileTree.create_eq_ok created
  rw [same]
  rcases clear_eq_ok done with removed | ⟨⟨message, missing⟩, rfl⟩
  next =>
    obtain ⟨old, there, oldFile, rfl⟩ := FileTree.remove_eq_ok removed
    obtain ⟨path, before, parsed', before_located, here⟩ := FileTree.lookUp_eq_ok there
    obtain rfl := FileTree.parse_eq_ok parsed'
    obtain rfl := FileTree.location_of_node? here
    have only : ∀ node, files.node? old.location = some node → node.kind ≠ .directory := by
      intro node now
      obtain rfl := Option.some.inj (here.symm.trans now)
      exact oldFile
    obtain rfl : old.location = location :=
      Except.ok.inj ((FileTree.locate_without only before_located).symm.trans located)
    have above : files.checkFolder old.location = .ok () := by
      rw [← folder, FileTree.checkFolder, FileTree.checkFolder,
        FileTree.node?_without (FileTree.dropLast_ne_of_locate located plain)]
    rw [FileTree.put_without files ⟨old.location, kind, mode⟩]
    exact FileTree.remove_put parsed before_located plain above only file
  next =>
    refine FileTree.remove_put parsed located plain folder (fun old here directory => ?_) file
    have there : cleared.lookUp text = .ok old := by
      simp [FileTree.lookUp, parsed, located, here, plain, Bind.bind, Except.bind, pure,
        Except.pure]
    obtain rfl := FileTree.location_of_node? here
    simp [FileTree.remove, there, plain, folder, directory, Bind.bind, Except.bind, throw,
      throwThe, MonadExceptOf.throw] at missing

theorem removable_empty (files : FileTree) : files.Removable "" := by
  have parsed : Path.parse "" = .error ⟨.notFound, none⟩ := rfl
  simp [FileTree.Removable, FileTree.find?, FileTree.lookUp, parsed, Bind.bind, Except.bind,
    Except.toOption]

theorem removable_of_withSocket {files cleared : FileTree} {text : String} {mode : Option UInt32}
    {number : Nat} (done : clear files text = .ok cleared) {left : FileTree}
    (socket : withSocket cleared text mode number = .ok left) : left.Removable text := by
  unfold withSocket at socket
  by_cases nameless : text = ""
  next =>
    subst nameless
    exact removable_empty left
  next =>
    rw [if_neg nameless] at socket
    obtain ⟨_, _, rest⟩ := FileTree.bind_eq_ok socket
    obtain ⟨made, created, rest⟩ := FileTree.bind_eq_ok rest
    cases rest
    exact fun _ => remove_of_clear done created nofun

theorem transport_of_bindTcp {network after : Network} {ip : Ip} {port : UInt16}
    {spared : List UInt16} {number : Nat} {bound : Endpoint}
    (done : network.bindTcp ip port spared = (.ok (number, bound), after)) :
    bound.transport = .tcp := by
  unfold bindTcp at done
  dsimp only at done
  generalize (if port = 0 then _ else port) = chosen at done
  split at done
  next => cases done
  next =>
    split at done
    next => cases done
    next =>
      cases done
      rfl

theorem removable_of_bind {network after : Network} {endpoint bound : Endpoint}
    {spared : List UInt16} {number : Nat}
    (done : network.bind endpoint spared = (.ok (number, bound), after))
    (unix : bound.transport = .unix) : after.files.Removable bound.address := by
  unfold bind at done
  split at done
  next => cases done
  next => simp [transport_of_bindTcp done] at unix
  next =>
    unfold bindUnix at done
    split at done
    next => cases done
    next cleared clears =>
      dsimp only at done
      split at done
      next => cases done
      next files socket =>
        cases done
        exact removable_of_withSocket clears socket

end Network

end TpmRelay

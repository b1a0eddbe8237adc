import Dialogue.Player
import Dialogue.Storage.Graph
/-!
Assets, settings and string tables in files. The files are a tree in memory, as far as a program can tell
that reads and writes a few texts. A path is followed step by step, from the root or from the folder the
program runs in. It leads nowhere if it is too long or goes on behind something that is not a folder.
-/
namespace Dialogue

abbrev Place := List String

structure FileTree where
  files : List (Place × String)
  input : String
deriving DecidableEq, Repr

namespace FileTree

def temporary : Place := ["tmp"]

/-- Programs run in a folder of their own among the temporary files. Its name is not known: no step of a
path says the empty name. -/
def home : Place := temporary ++ [""]

def nullDevice : Place := ["dev", "null"]

def standardInput : Place := ["proc", "self", "fd", "0"]

def standardFolders : List Place :=
  ["dev", "etc", "home", "opt", "proc", "run", "sys", "tmp", "usr", "var"].map ([·])

def links : List (Place × Place) :=
  [(["dev", "stdin"], standardInput), (["dev", "fd"], standardInput.dropLast),
    (["proc", "self", "cwd"], home), (["proc", "self", "root"], [])]

def longestPath : Nat := 4095

def longestName : Nat := 255

def split : List Char → List (List Char)
  | [] => [[]]
  | c :: rest =>
      match c, split rest with
      | '/', more => [] :: more
      | c, [] => [[c]]
      | c, first :: more => (c :: first) :: more

def steps (path : String) : List String := (split path.toList).map String.ofList

def isStill (step : String) : Bool := step == "" || step == "."

def isName (step : String) : Bool :=
  !isStill step && step != ".." && step.utf8ByteSize ≤ longestName && !step.toList.contains '\x00'

def isFolder (tree : FileTree) (place : Place) : Bool :=
  place.isPrefixOf home || standardFolders.contains place ||
    (nullDevice :: standardInput :: tree.files.map Prod.fst).any fun file =>
      place.isPrefixOf file.dropLast

/-- Follows the steps of a path. The last one may lead to a place where nothing is yet; every other one
leads to a folder. The root is above itself. -/
def follow? (tree : FileTree) (place : Place) : List String → Option Place
  | [] => some place
  | step :: rest =>
      if !tree.isFolder place then none
      else if isStill step then tree.follow? place rest
      else if step = ".." then tree.follow? place.dropLast rest
      else if isName step then
        let next := place ++ [step]
        tree.follow? ((links.lookup next).getD next) rest
      else none

def locate? (tree : FileTree) (path : String) : Option Place :=
  if path.isEmpty || longestPath < path.utf8ByteSize then none
  else tree.follow? (if path.toList.head? = some '/' then [] else home) (steps path)

def read (path : String) : StateM FileTree (Option String) := fun tree =>
  match tree.locate? path with
  | none => (none, tree)
  | some place =>
      if place = nullDevice then (some "", tree)
      else if place = standardInput then (some tree.input, { tree with input := "" })
      else (tree.files.lookup place, tree)

def write? (tree : FileTree) (path text : String) : Option FileTree :=
  (tree.locate? path).bind fun place =>
    if place = nullDevice then some tree
    else if tree.isFolder place || !temporary.isPrefixOf place then none
    else some { tree with files := (place, text) :: tree.files }

def add (tree : FileTree) (path text : String) : FileTree :=
  { tree with files := (home ++ (steps path).filter isName, text) :: tree.files }

def ofFiles (files : List (String × String)) (input : String) : FileTree :=
  files.foldl (fun tree file => tree.add file.1 file.2) ⟨[], input⟩

end FileTree

/-!
Assets are graphs under a version number.
-/

open Json

structure Asset where
  version : Nat
  graph : Graph

inductive AssetError where
  /-- A file that cannot be opened, read or written. -/
  | file (path : String)
  | data (error : ReadError)
  | unsupportedVersion (found : Nat)
deriving DecidableEq, Repr

namespace Asset

def currentVersion : Nat := 1

end Asset

def AssetError.message : AssetError → String
  | .file path => "failed to access " ++ path
  | .data error => "invalid dialogue JSON: " ++ error.message
  | .unsupportedVersion found =>
      "unsupported asset version " ++ toString found ++ " (supported: 1..=" ++
        toString Asset.currentVersion ++ ")"

namespace Asset

def new (graph : Graph) : Asset := ⟨currentVersion, graph⟩

def blank : Asset := new ((Graph.new "Dialogue").addNode (.of .start)).2

def toJson (asset : Asset) : Json :=
  record [("version", ofNat asset.version), ("graph", asset.graph.toJson)]

def toText (asset : Asset) : String := asset.toJson.toPretty

def versionOfJson (json : Json) : Except ReadError Nat :=
  ReadError.ofOption (natBelow? idBound json)

/-- Goes through members in order, so that a misfiled node is reported unless something before it is
wrong. -/
def ofMembers : Option Nat → Option Graph → List Field → Except ReadError Asset
  | some version, some graph, [] => .ok ⟨version, graph⟩
  | _, _, [] => .error .malformed
  | version, graph, (lexeme, value) :: rest =>
      match (Lexeme.read? lexeme).map String.ofList with
      | none => .error .malformed
      | some name =>
          if name = "version" then
            match version, versionOfJson value with
            | none, .ok version => ofMembers (some version) graph rest
            | _, _ => .error .malformed
          else if name = "graph" then
            match graph, Graph.ofJson value with
            | none, .ok graph => ofMembers version (some graph) rest
            | none, .error error => .error error
            | some _, _ => .error .malformed
          else if isBroken value then .error .malformed
          else ofMembers version graph rest

def ofJson : Json → Except ReadError Asset
  | .object fields => ofMembers none none fields
  | .array (first :: second :: rest) => do
      let version ← versionOfJson first
      let graph ← Graph.ofJson second
      if rest.isEmpty then return ⟨version, graph⟩ else throw .malformed
  | _ => .error .malformed

def isSupported (version : Nat) : Bool := 1 ≤ version && version ≤ currentVersion

def ofText (text : String) : Except AssetError Asset :=
  match readText ofJson text with
  | .error error => .error (.data error)
  | .ok asset =>
      if isSupported asset.version then .ok asset else .error (.unsupportedVersion asset.version)

def ofFile (path : String) : Option String → Except AssetError Asset
  | none => .error (.file path)
  | some text => ofText text

def load (path : String) (tree : FileTree) : Except AssetError Asset :=
  ofFile path ((FileTree.read path).run tree).1

def save (asset : Asset) (path : String) (tree : FileTree) : Except AssetError FileTree :=
  match tree.write? path asset.toText with
  | none => .error (.file path)
  | some tree => .ok tree

end Asset

/-!
Settings may leave out anything.
-/

namespace Config

def toJson (config : Config) : Json :=
  record [("max_hops", ofNat config.maxHops), ("strict_capabilities", .boolean config.strict)]

def ofJson? : Reader Config := fun json => do
  let members ← record? ["max_hops", "strict_capabilities"] json
  return {
    maxHops := ← defaulted members "max_hops" default.maxHops (natBelow? countBound)
    strict := ← defaulted members "strict_capabilities" default.strict boolean? }

end Config

namespace Settings

def toJson (settings : Settings) : Json :=
  record [("locale", ofText settings.locale), ("traversal", settings.traversal.toJson)]

def ofJson? : Reader Settings := fun json => do
  let members ← record? ["locale", "traversal"] json
  return {
    locale := ← defaulted members "locale" default.locale text?
    traversal := ← defaulted members "traversal" default.traversal Config.ofJson? }

end Settings

namespace StringTables

def mapToJson {α : Type} (write : α → Json) (map : Keyed String α) : Json :=
  record (map.entries.map fun entry => (entry.1, write entry.2))

def mapOfJson? {α : Type} (read : Reader α) : Reader (Keyed String α) := fun json => do
  let members ← members? json
  let entries ← members.mapM fun member => (read member.2).map fun value => (member.1, value)
  return Keyed.ofList entries

def toJson (strings : StringTables) : Json :=
  mapToJson (mapToJson (mapToJson ofText)) strings.tables

def ofJson? : Reader StringTables := fun json =>
  (mapOfJson? (mapOfJson? (mapOfJson? text?)) json).map StringTables.mk

end StringTables

end Dialogue

import JobPlane.Json.Record
import JobPlane.Text.Cut

/-!
# Container images

A reference to an image: a repository path, a tag, and a content ID it is pinned to. Artifacts name images by URIs of the form
`docker://repository[:tag][?id=content]`. A colon in the last segment of the path begins the tag; colons before it belong to a
registry's port.
-/

namespace JobPlane

/-- A runnable image. -/
structure ImageRef where
  name : String := ""
  tag : Option String := none
  /-- The content the image is pinned to. -/
  id : Option String := none
  deriving Repr, DecidableEq, Inhabited

namespace ImageRef

/-- Why a URI names no image. -/
inductive Flaw
  | scheme
  | noRepository
  | character
  | repository
  | emptyId
  deriving Repr, DecidableEq

/-- The wording of a flaw. -/
def Flaw.message : Flaw → String
  | scheme => "unsupported scheme"
  | noRepository => "missing repository"
  | character => "invalid character in repository"
  | repository => "malformed repository"
  | emptyId => "empty image id"

/-- What an image URI begins with. -/
def scheme : List Char := "docker://".toList

/-- The characters a path may have. -/
def isPathChar (c : Char) : Bool :=
  c.isAlphanum || c = '.' || c = '_' || c = '-' || c = '/' || c = ':'

/-- The name and tag of a path. -/
def splitTag (path : List Char) : List Char × Option (List Char) :=
  match Text.cutLast ':' path with
  | some (name, tag) => if tag.contains '/' then (path, none) else (name, some tag)
  | none => (path, none)

/-- The content ID that the pairs of a query name, the last one counting. -/
def contentId (id : Option (List Char)) : List (List Char) → Except Flaw (Option (List Char))
  | [] => .ok id
  | p :: ps =>
    match Text.cutFirst '=' p with
    | some (['i', 'd'], []) => .error .emptyId
    | some (['i', 'd'], v) => contentId (some v) ps
    | _ => contentId id ps

/-- The image a URI names. -/
def parseChars (uri : List Char) : Except Flaw (List Char × Option (List Char) × Option (List Char)) :=
  match Text.after? scheme uri with
  | none => .error .scheme
  | some rest =>
    let (path, query) := match Text.cutFirst '?' rest with
      | some (path, query) => (path, Text.pieces '&' query)
      | none => (rest, [])
    let path := path.dropWhile (· = '/')
    if path.isEmpty then .error .noRepository
    else if !path.all isPathChar then .error .character
    else
      let (name, tag) := splitTag path
      if name.isEmpty || name.getLast? = some '/' || tag = some [] then .error .repository
      else (contentId none query).map fun id => (name, tag, id)

/-- The image a URI names. -/
def parse (uri : String) : Except Flaw ImageRef :=
  (parseChars uri.toList).map fun (name, tag, id) =>
    ⟨String.ofList name, tag.map String.ofList, id.map String.ofList⟩

/-- The short form of an image, as container runtimes take it. -/
def display (i : ImageRef) : String :=
  i.name ++ (match i.tag with | some t => ":" ++ t | none => "") ++ (match i.id with | some d => "@" ++ d | none => "")

/-- An image as JSON. -/
def toJson (i : ImageRef) : String :=
  Json.writeObject [("name", Json.writeString i.name), ("tag", Json.writeOption i.tag), ("id", Json.writeOption i.id)]

/-- The fields of an image's JSON. -/
def fields : List (Json.Field ImageRef) :=
  [.of "name" .required Json.readString fun v i => { i with name := v },
   .of "tag" .optional (Json.readOption Json.readString) fun v i => { i with tag := v },
   .of "id" .optional (Json.readOption Json.readString) fun v i => { i with id := v }]

/-- Reads an image from JSON. -/
def read : Json.Reader ImageRef := Json.readRecord fields {}

end ImageRef

end JobPlane

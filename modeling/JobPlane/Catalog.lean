import JobPlane.Image
import JobPlane.Text.Quoted
import JobPlane.TextMap

/-!
# The catalog

Apps, releases and artifacts, each under its ID. A release names its artifact and carries an environment; an artifact names
the image it is by URI. A catalog can be read from a JSON seed. A record put in later takes the place of one with its ID.
-/

namespace JobPlane

/-- An application. -/
structure App where
  id : String := ""
  name : String := ""
  deriving Repr, DecidableEq, Inhabited

/-- A release of an application. -/
structure Release where
  id : String := ""
  artifactId : String := ""
  env : TextMap := .empty
  deriving DecidableEq, Inhabited

/-- Something that can be run. -/
structure Artifact where
  id : String := ""
  kind : String := ""
  uri : String := ""
  deriving Repr, DecidableEq, Inhabited

/-- Why the catalog does not answer. -/
inductive CatalogError
  | appNotFound (id : String)
  | releaseNotFound (id : String)
  | artifactNotFound (id : String)
  | invalidImage (uri reason : String)
  | load (message : String)
  deriving Repr, DecidableEq

namespace CatalogError

/-- The wording of a catalog error. -/
def message : CatalogError → String
  | appNotFound id => "app not found: " ++ id
  | releaseNotFound id => "release not found: " ++ id
  | artifactNotFound id => "artifact not found: " ++ id
  | invalidImage uri reason => "invalid image URI " ++ Text.quoted uri ++ ": " ++ reason
  | load m => "failed to load catalog: " ++ m

end CatalogError

/-- The image of an artifact, with a flaw of its URI as a catalog error. -/
def ImageRef.ofUri (uri : String) : Except CatalogError ImageRef :=
  match ImageRef.parse uri with
  | .ok i => .ok i
  | .error f => .error (.invalidImage uri f.message)

/-- A map as a JSON object. -/
def TextMap.toJson (m : TextMap) : String := Json.writeObject (m.entries.map fun (k, v) => (k, Json.writeString v))

/-- Reads a map from a JSON object. -/
def TextMap.read : Json.Reader TextMap := fun bs =>
  (Json.readPairs Json.readString bs).map fun (es, bs) => (TextMap.ofList es, bs)

namespace App

/-- An app as JSON. -/
def toJson (a : App) : String := Json.writeObject [("id", Json.writeString a.id), ("name", Json.writeString a.name)]

/-- The fields of an app's JSON. -/
def fields : List (Json.Field App) :=
  [.of "id" .required Json.readString fun v a => { a with id := v },
   .of "name" .defaulted Json.readString fun v a => { a with name := v }]

end App

namespace Release

/-- A release as JSON. -/
def toJson (r : Release) : String :=
  Json.writeObject [("id", Json.writeString r.id), ("artifactID", Json.writeString r.artifactId), ("env", r.env.toJson)]

/-- The fields of a release's JSON. -/
def fields : List (Json.Field Release) :=
  [.of "id" .required Json.readString fun v r => { r with id := v },
   .of "artifactID" .required Json.readString fun v r => { r with artifactId := v },
   .of "env" .defaulted TextMap.read fun v r => { r with env := v }]

end Release

namespace Artifact

/-- An artifact as JSON. -/
def toJson (a : Artifact) : String :=
  Json.writeObject [("id", Json.writeString a.id), ("type", Json.writeString a.kind), ("uri", Json.writeString a.uri)]

/-- The fields of an artifact's JSON. -/
def fields : List (Json.Field Artifact) :=
  [.of "id" .required Json.readString fun v a => { a with id := v },
   .of "type" .defaulted Json.readString fun v a => { a with kind := v },
   .of "uri" .required Json.readString fun v a => { a with uri := v }]

end Artifact

/-- A catalog: its records, of which later ones take the place of earlier ones with the same ID. -/
structure Catalog where
  apps : List App := []
  releases : List Release := []
  artifacts : List Artifact := []
  deriving DecidableEq, Inhabited

namespace Catalog

/-- The app with an ID. -/
def app (c : Catalog) (id : String) : Except CatalogError App :=
  match c.apps.reverse.find? (·.id == id) with
  | some a => .ok a
  | none => .error (.appNotFound id)

/-- The release with an ID. -/
def release (c : Catalog) (id : String) : Except CatalogError Release :=
  match c.releases.reverse.find? (·.id == id) with
  | some r => .ok r
  | none => .error (.releaseNotFound id)

/-- The artifact with an ID. -/
def artifact (c : Catalog) (id : String) : Except CatalogError Artifact :=
  match c.artifacts.reverse.find? (·.id == id) with
  | some a => .ok a
  | none => .error (.artifactNotFound id)

/-- Puts in an app. -/
def putApp (c : Catalog) (a : App) : Catalog := { c with apps := c.apps ++ [a] }

/-- Puts in a release. -/
def putRelease (c : Catalog) (r : Release) : Catalog := { c with releases := c.releases ++ [r] }

/-- Puts in an artifact. -/
def putArtifact (c : Catalog) (a : Artifact) : Catalog := { c with artifacts := c.artifacts ++ [a] }

/-- The fields of a seed's JSON. -/
def fields : List (Json.Field Catalog) :=
  [.of "apps" .defaulted (Json.readList (Json.readRecord App.fields {})) fun v c => { c with apps := v },
   .of "releases" .defaulted (Json.readList (Json.readRecord Release.fields {})) fun v c => { c with releases := v },
   .of "artifacts" .defaulted (Json.readList (Json.readRecord Artifact.fields {})) fun v c => { c with artifacts := v }]

/-- Reads a catalog from a JSON seed. -/
def ofJson (seed : Bytes) : Except Json.Fault Catalog := Json.readAll (Json.readRecord fields {}) seed

end Catalog

end JobPlane

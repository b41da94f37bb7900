import SiteScript.Json.Members

/-!
# JSON schemas

A `Schema` lists the properties of a record with their descriptions, shapes and defaults.
`Schema.document` writes it as a self-contained JSON schema, with the records it refers to among its
definitions.
-/

namespace SiteScript

/-- The shape of a property. Properties with a default may be absent, and null if it says so. -/
inductive PropertyShape where
  /-- A string that has to be present. -/
  | text
  /-- A string or null. -/
  | textOrNull (default : Option String)
  /-- A boolean. -/
  | bool (default : Bool)
  /-- A boolean or null, which is the default. -/
  | boolOrNull
  /-- A list of records or null; the default is the empty list. -/
  | listOrNull (record : String)
  /-- A record or null. -/
  | recordOrNull (record : String)
deriving DecidableEq, Repr

/-- One property of a record. -/
structure Property where
  name : String
  description : Option String
  shape : PropertyShape
deriving DecidableEq, Repr

/-- The schema of a record. -/
structure Schema where
  title : String
  description : String
  properties : List Property
  /-- Whether the record keeps members that are not among its properties. -/
  isOpen : Bool := false
deriving DecidableEq, Repr

namespace PropertyShape

/-- The types of a value that may be null. -/
def orNull (type : String) : String × Json :=
  ("type", .arr [.str type, .str "null"])

/-- A reference to a record among the definitions. -/
def reference (record : String) : Json :=
  .obj [("$ref", .str ("#/$defs/" ++ record))]

/-- The members by which a schema states a shape. -/
def members : PropertyShape → Members
  | text => [("type", .str "string")]
  | textOrNull none => [orNull "string"]
  | textOrNull (some default) => [("default", .str default), orNull "string"]
  | bool default => [("default", .bool default), ("type", .str "boolean")]
  | boolOrNull => [("default", .null), orNull "boolean"]
  | listOrNull record => [("default", .arr []), ("items", reference record), orNull "array"]
  | recordOrNull record => [("anyOf", .arr [reference record, .obj [("type", .str "null")]])]

end PropertyShape

/-- The member that holds a description. -/
def describing : Option String → Members
  | some s => [("description", .str s)]
  | none => []

/-- A property with the key it stands under. -/
def Property.member (p : Property) : String × Json :=
  (p.name, .obj (describing p.description ++ p.shape.members))

namespace Schema

/-- The properties that have to be present, in declared order. -/
def required (s : Schema) : List String :=
  (s.properties.filter fun p => p.shape = .text).map Property.name

/-- The members that describe a record, in a document of its own or among definitions. -/
def members (s : Schema) : Members :=
  (if s.isOpen then [("additionalProperties", .bool true)] else []) ++
    describing s.description ++
    [("properties", .obj (s.properties.map Property.member))] ++
    (if s.required = [] then [] else [("required", .arr (s.required.map .str))]) ++
    [("type", .str "object")]

/-- The member that names the dialect of schemas. -/
def dialect : String × Json :=
  ("$schema", .str "https://json-schema.org/draft/2020-12/schema")

/-- A schema as a document, with the schemas it refers to. -/
def document (s : Schema) (definitions : List Schema) : Json :=
  Json.canonical (.obj (
    (if definitions = [] then []
      else [("$defs", .obj (definitions.map fun d => (d.title, .obj d.members)))]) ++
    [dialect, ("title", .str s.title)] ++ s.members))

end Schema

end SiteScript

import TableGateway.Convert.Binding

/-!
# Documents from cells

How a cell of a result becomes a value of an answer. UUIDs, bytes, dates, times and composites come
in envelopes that tell their kind; arrays may come as text literals.
Section 4.5, with 10.3 of the specification.

| here | in the service |
| --- | --- |
| `Convert.uuidEnvelope` | `uuid_envelope` |
| `Convert.bytesEnvelope` | `bytea_envelope` |
| `Convert.temporalKind` | `temporal_kind` |
| `Convert.temporalEnvelope` | `temporal_envelope` |
| `Convert.compositeEnvelope` | `composite_to_json` |
| `Convert.scalarJson` | `scalar_to_json` |
| `Convert.elementsJson` | `TypeConverter.elements_to_json` |
| `Convert.json` | `TypeConverter.array_to_json`, `TypeConverter.to_json` |
| `Convert.rowJson` | `TypeConverter.row_to_json` |
| `Convert.rowsJson` | `RestService.rows_to_json` |
-/
namespace TableGateway.Convert

/-! ## Envelopes -/

def uuidEnvelope (u : Uuid) : Json :=
  .object [("value", .str u.text), ("version", .nat u.version)]

def bytesEnvelope (bs : List UInt8) : Json :=
  .object [("type", .str "bytea"), ("encoding", .str "base64"),
    ("data", .str (String.ofList (Text.Base64.encode bs))), ("length", .nat bs.length)]

def temporalKind : ScalarType → String
  | .date => "DATE"
  | .time => "TIME"
  | .interval => "INTERVAL"
  | _ => "TIMESTAMP"

def temporalEnvelope (type : ScalarType) (c : Cell) : Json :=
  .object [("type", .str (temporalKind type)), ("value", .str (c.text?.getD ""))]

/-- The fields of a composite, where the empty text is null. -/
def compositeEnvelope (name : String) (s : String) : Json :=
  .object [("type", .str "composite"), ("typeName", .str name),
    ("fields", .arr ((Literal.readComposite s).map fun f => if f.isEmpty then .null else .str f))]

/-! ## Cells -/

def scalarJson (type : ScalarType) (c : Cell) : Json :=
  if type.isTemporal then temporalEnvelope type c
  else
    match type, c with
    | .json, .text s | .jsonb, .text s => (Json.read? s).getD (.str s)
    | .uuid, .uuid u => uuidEnvelope u
    | .uuid, .text s => ((Uuid.read? s.toList).map uuidEnvelope).getD (.str s)
    | .bytea, .bytes bs => bytesEnvelope bs
    | .bytea, .text s => ((hexBytes? s).map bytesEnvelope).getD (.str s)
    | _, c => c.plainJson

def singleJson (type : ColumnType) (c : Cell) : Json :=
  if c.isNull then .null
  else
    match type, c with
    | .scalar t, c => scalarJson t c
    | .composite name, .text s => compositeEnvelope name s
    | _, c => c.plainJson

variable {σ : Type} (source : SchemaSource σ)

mutual

/-- The document of an item of an array literal. An item that is no value of the type stays text. -/
def elementJson (type : ColumnType) : Literal.Element → StateM σ Json
  | .null => return .null
  | .nested inner => return .arr (← elementsJson type.element inner)
  | .item s => do
    let cell ← (single source type.baseElement (.str s)).run
    return singleJson type.baseElement (cell.toOption.getD (.text s))

def elementsJson (type : ColumnType) : List Literal.Element → StateM σ (List Json)
  | [] => return []
  | item :: rest => do
    let v ← elementJson type item
    return v :: (← elementsJson type rest)

end

/-- The document of a cell that is no array, of an array type with the items' type. -/
def literalJson (inner : ColumnType) : Cell → StateM σ Json
  | .text s =>
    match Literal.readArray s with
    | .ok items => return .arr (← elementsJson source inner items)
    | .error _ => return .str s
  | c => return c.plainJson

mutual

def json (type : ColumnType) : Cell → StateM σ Json
  | .array items =>
    match type with
    | .array inner => return .arr (← jsons inner items)
    | type => return singleJson type (.array items)
  | c =>
    match type with
    | .array inner => literalJson source inner c
    | type => return singleJson type c

/-- The documents of the items of an array. An array within it has the type of the items' items. -/
def jsons (type : ColumnType) : List Cell → StateM σ (List Json)
  | [] => return []
  | .array inner :: rest => do
    let items ← jsons type.element inner
    return .arr items :: (← jsons type rest)
  | item :: rest => do
    let v ← json type item
    return v :: (← jsons type rest)

end

/-- The object of a row of a table. A cell under a name that is no column of the table is written
without its type. -/
def rowJson (table : Table) : Row → StateM σ Record
  | [] => return []
  | (name, c) :: rest => do
    let v ← match table.column? name with
      | some column => json source column.type c
      | none => pure c.plainJson
    return (name, v) :: (← rowJson table rest)

def rowsJson (table : Table) (rows : List Row) : StateM σ (List Record) :=
  rows.mapM (rowJson source table)

end Convert
end TableGateway

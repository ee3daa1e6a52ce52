import TableGateway.Cell
import TableGateway.Query.Page

/-!
# Answers

What reading a table gives: a page of records with the number of all records, or a window of them
with a cursor for each. Both are shown as JSON. Section 10.6 of the specification.
-/
namespace TableGateway

/-- A page of records. -/
structure Listing where
  records : List Record
  page : Page
  /-- The number of records on all pages. -/
  total : Nat
  deriving Repr

namespace Listing

def hasMore (l : Listing) : Bool := l.page.offset + l.records.length < l.total

def json (l : Listing) : Json :=
  .object [
    ("data", .arr (l.records.map .obj)),
    ("pagination", .object [
      ("offset", .nat l.page.offset), ("limit", .nat l.page.limit), ("total", .nat l.total),
      ("hasMore", .bool l.hasMore)])]

def range (l : Listing) : String :=
  if l.records.isEmpty then "*/" ++ toString l.total
  else
    toString l.page.offset ++ "-" ++ toString (l.page.offset + l.records.length - 1) ++ "/" ++
      toString l.total

end Listing

/-- A record with the cursor of its place. -/
structure Edge where
  node : Record
  cursor : String
  deriving Repr

/-- A window of records. -/
structure Connection where
  edges : List Edge
  hasNextPage : Bool
  hasPreviousPage : Bool
  /-- The number of records in all windows. -/
  total : Nat
  deriving Repr

namespace Connection

def startCursor? (c : Connection) : Option String := c.edges.head?.map Edge.cursor

def endCursor? (c : Connection) : Option String := c.edges.getLast?.map Edge.cursor

def json (c : Connection) : Json :=
  .object [
    ("edges", .arr (c.edges.map fun e =>
      .object [("node", .obj e.node), ("cursor", .str e.cursor)])),
    ("pageInfo", .object [
      ("hasNextPage", .bool c.hasNextPage), ("hasPreviousPage", .bool c.hasPreviousPage),
      ("startCursor", .ofText? c.startCursor?), ("endCursor", .ofText? c.endCursor?)]),
    ("totalCount", .nat c.total)]

end Connection

inductive Answer where
  | listing (l : Listing)
  | connection (c : Connection)
  deriving Repr

def Answer.json : Answer → Json
  | listing l => l.json
  | connection c => c.json

end TableGateway

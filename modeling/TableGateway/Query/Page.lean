import TableGateway.Config
import TableGateway.Query.Params

/-!
# Pages

The part of a result that a request asks for: by offset and limit, or by cursors before and after
it. Section 10.6 of the specification.

| here | in the service |
| --- | --- |
| `Page.ofParams` | `PageRequest.from_params` |
| `CursorWindow.ofParams` | `CursorRequest.from_params` |
| `CursorWindow.isBackward` | `CursorRequest.is_backward` |
| `CursorWindow.size` | `CursorRequest.page_size` |
-/
namespace TableGateway

structure Page where
  offset : Nat
  limit : Nat
  deriving DecidableEq, Repr

/-- The page of a request: `limit` or `size`, and `offset` or `page`, counted from zero. -/
def Page.ofParams (params : Params) (limits : Limits) : Except Fault Page := do
  let limit ← match ← params.size? "limit" with
    | some n => pure n
    | none => pure ((← params.size? "size").getD limits.defaultLimit)
  if limit = 0 || limits.maxLimit < limit then
    throw (.validation ("limit must be between 1 and " ++ toString limits.maxLimit))
  let offset ← match ← params.size? "offset" with
    | some n => pure n
    | none => pure (min (((← params.size? "page").getD 0) * limit) Number.maxSize)
  if limits.maxOffset < offset then
    throw (.validation ("offset must not exceed " ++ toString limits.maxOffset))
  return { offset, limit }

/-- A window of rows before or after a cursor. -/
structure CursorWindow where
  first : Option Nat
  after : Option String
  last : Option Nat
  before : Option String
  deriving DecidableEq, Repr

namespace CursorWindow

/-- The size of a window lies within the bounds. -/
def checkSize (limits : Limits) (n : Nat) : Except Fault Unit :=
  if n = 0 || limits.maxLimit < n then
    .error (.validation ("page size must be between 1 and " ++ toString limits.maxLimit))
  else .ok ()

/-- The window of a request: the first or the last so many rows, but not both. -/
def ofParams (params : Params) (limits : Limits) : Except Fault CursorWindow := do
  let first ← params.size? "first"
  let last ← params.size? "last"
  if first.isSome && last.isSome then
    throw (.validation "first and last cannot be combined")
  for n in first.toList ++ last.toList do checkSize limits n
  return { first, after := params.first? "after", last, before := params.first? "before" }

/-- The window is walked from its end. -/
def isBackward (w : CursorWindow) : Bool :=
  w.last.isSome || (w.before.isSome && w.first.isNone)

def size (w : CursorWindow) (limits : Limits) : Nat := (w.first.or w.last).getD limits.defaultLimit

end CursorWindow
end TableGateway

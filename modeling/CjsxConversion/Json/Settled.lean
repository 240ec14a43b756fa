import CjsxConversion.Json.Draft

/-!
# Settled drafts

A value at hand has no order of members and no member twice: its members are in ascending order of
keys, and of members with one key the last is kept.
-/

namespace CjsxConversion
namespace Json
namespace Draft

/-- Puts a member into its place among members in ascending order. -/
def placeMember (k : String) (v : Draft) : List (String × Draft) → List (String × Draft)
  | [] => [(k, v)]
  | e :: rest =>
    if k < e.1 then (k, v) :: e :: rest
    else if k = e.1 then (k, v) :: rest
    else e :: placeMember k v rest

/-- Members in ascending order, the last of a key kept. -/
def arrange (ms : List (Draft × Draft)) : List (Draft × Draft) :=
  let placed := ms.foldl (fun acc m =>
    match m.1 with
    | .str k => placeMember k m.2 acc
    | _ => acc) []
  placed.map fun e => (.str e.1, e.2)

mutual

/-- A draft as a value at hand. -/
def settle : Draft → Draft
  | .arr items broken => .arr (settleItems items) broken
  | .obj members broken => .obj (arrange (settleMembers members)) broken
  | d => d

/-- The elements of an array as values at hand. -/
def settleItems : List Draft → List Draft
  | [] => []
  | d :: ds => settle d :: settleItems ds

/-- The members of an object with values at hand. -/
def settleMembers : List (Draft × Draft) → List (Draft × Draft)
  | [] => []
  | (k, v) :: ms => (k, settle v) :: settleMembers ms

end

end Draft
end Json
end CjsxConversion

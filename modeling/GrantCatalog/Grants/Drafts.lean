import GrantCatalog.Grants.Basic

/-!
# Grants under construction

Several values of `GrantCatalog.Grants` that are built up side by side, each under a name. A name
never used stands for no grants. The edits are the constructions of grants, and merging takes a
copy of another draft, which may be the draft itself.
-/

namespace GrantCatalog

/-- Grants under construction, by name. -/
abbrev Drafts := Std.ExtTreeMap String Grants

namespace Drafts

/-- A change to one draft. -/
inductive Edit where
  /-- Start again with nothing. -/
  | clear
  /-- Start again with everything. -/
  | everything
  /-- Grant some privileges on a scope. -/
  | add (scope : Scope) (ps : List Privilege)
  /-- Grant all that another draft holds. -/
  | merge (other : String)
  deriving Repr

/-- The draft with a name. -/
def get (d : Drafts) (name : String) : Grants := d.getD name ∅

/-- The draft with a name after an edit. -/
def edited (d : Drafts) (name : String) : Edit → Grants
  | .clear => .nothing
  | .everything => .everything
  | .add scope ps => (d.get name).addAll scope ps
  | .merge other => (d.get name).merge (d.get other)

/-- **An edit of one draft**; the others stay as they are. -/
def edit (d : Drafts) (name : String) (e : Edit) : Drafts := d.insert name (d.edited name e)

/-- A run of edits, from no drafts on. -/
def ofEdits (es : List (String × Edit)) : Drafts :=
  es.foldl (fun d (name, e) => d.edit name e) ∅

end Drafts

end GrantCatalog

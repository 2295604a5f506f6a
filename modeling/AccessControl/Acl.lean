import AccessControl.Resource

namespace AccessControl

/-- To whom an entry of an access-control list grants: one user, or every caller with a role. -/
inductive AclIdentity
  | user (name : String)
  | role (name : String)
  deriving DecidableEq, Repr

namespace AclIdentity

def name : AclIdentity → String
  | user name | role name => name

def kindRank : AclIdentity → Nat
  | user _ => 0
  | role _ => 1

/-- Users come before roles; within each kind the names decide. -/
instance : Ord AclIdentity := ⟨compareLex (compareOn kindRank) (compareOn name)⟩

instance : Std.TransOrd AclIdentity :=
  inferInstanceAs (Std.TransCmp (compareLex (compareOn kindRank) (compareOn name)))

instance : Std.LawfulEqOrd AclIdentity where
  compare_self := Std.ReflCmp.compare_self
  eq_of_compare {a b} same := by
    obtain ⟨kinds, names⟩ := Ordering.then_eq_eq.mp same
    have kindEq : a.kindRank = b.kindRank := Std.LawfulEqCmp.eq_of_compare kinds
    have nameEq : a.name = b.name := Std.LawfulEqCmp.eq_of_compare names
    cases a <;> cases b <;> simp_all [kindRank, name]

def kindWord : AclIdentity → String
  | user _ => "user"
  | role _ => "role"

def text (i : AclIdentity) : String := i.kindWord ++ ":" ++ i.name

end AclIdentity

/-- One grant. -/
structure AclEntry where
  identity : AclIdentity
  permission : Permission
  deriving DecidableEq, Repr

def AclEntry.grants (e : AclEntry) (requested : Permission) : Bool := e.permission.contains requested

/-- The grants on one resource, in the order in which they were added. -/
structure Acl where
  resource : ResourceId
  entries : List AclEntry
  deriving DecidableEq, Repr

namespace Acl

def empty (resource : ResourceId) : Acl := ⟨resource, []⟩

/-- The entry for exactly this identity. -/
def entry? (acl : Acl) (identity : AclIdentity) : Option AclEntry := acl.entries.find? (·.identity == identity)

/-- Appends an entry for an identity that has none. Says whether it did. -/
def add (acl : Acl) (e : AclEntry) : Bool × Acl :=
  if (acl.entry? e.identity).isSome then (false, acl) else (true, { acl with entries := acl.entries ++ [e] })

/-- Puts an entry in the place of the first one for its identity. -/
def replaceFirst (e : AclEntry) : List AclEntry → List AclEntry
  | [] => []
  | old :: rest => if old.identity = e.identity then e :: rest else old :: replaceFirst e rest

/-- Replaces the entry for an identity that has one. Says whether it did. -/
def update (acl : Acl) (e : AclEntry) : Bool × Acl :=
  ((acl.entry? e.identity).isSome, { acl with entries := replaceFirst e acl.entries })

/-- Drops the entry for an identity. Says whether there was one. -/
def remove (acl : Acl) (identity : AclIdentity) : Bool × Acl :=
  let kept := acl.entries.filter (·.identity ≠ identity)
  (kept.length != acl.entries.length, { acl with entries := kept })

/-- A list with these entries; a second entry for one identity is an error. -/
def withEntries (resource : ResourceId) (entries : List AclEntry) : Except Error Acl :=
  entries.foldlM (fun acl e =>
    match acl.add e with
    | (true, next) => .ok next
    | (false, _) =>
      .error (.invalid s!"ACL for {resource.text} has more than one entry for {e.identity.text}")) (empty resource)

/-- Whether the entry for an identity grants every requested bit. -/
def isGranted (acl : Acl) (requested : Permission) (identity : AclIdentity) : Bool :=
  (acl.entry? identity).any (·.grants requested)

/-- Whether an entry speaks of a user or of a role that the user holds. -/
def concerns (user : String) (roles : Option RoleGroup) (e : AclEntry) : Bool :=
  match e.identity with
  | .user name => name == user
  | .role name => roles.any (·.holds name)

/-- The union of all that is granted to a user and the user's roles; nothing when no entry speaks of them. -/
def effectivePermission (acl : Acl) (user : String) (roles : Option RoleGroup) : Option Permission :=
  match (acl.entries.filter (concerns user roles)).map (·.permission) with
  | [] => none
  | first :: rest => some (rest.foldl Permission.union first)

/-- Whether a single role entry held by a group grants every requested bit. -/
def isGrantedToRoles (acl : Acl) (requested : Permission) (roles : RoleGroup) : Bool :=
  acl.entries.any fun e =>
    match e.identity with
    | .role name => roles.holds name && e.grants requested
    | .user _ => false

end Acl

end AccessControl

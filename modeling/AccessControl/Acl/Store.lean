import AccessControl.Acl
import AccessControl.Decision

namespace AccessControl

/-- What creating a list does when the resource already has one. -/
inductive CreateMode
  | reject | overwrite
  deriving DecidableEq, Repr

/-- A store that keeps the list of each resource in memory. -/
structure MemoryStore where
  mode : CreateMode
  acls : SortedMap ResourceId Acl
  deriving DecidableEq

namespace MemoryStore

def empty (mode : CreateMode) : MemoryStore := ⟨mode, .empty⟩

/-- Creates and stores the list of a resource. Repeated identities are refused before the store is looked at. The store
outlives a refusal. -/
def create (s : MemoryStore) (resource : ResourceId) (entries : List AclEntry) : Except Error Acl × MemoryStore :=
  match Acl.withEntries resource entries with
  | .error e => (.error e, s)
  | .ok acl =>
    if s.mode = .reject && s.acls.contains resource then
      (.error (.alreadyExists s!"ACL for {resource.text} already exists"), s)
    else (.ok acl, { s with acls := s.acls.insert resource acl })

def get? (s : MemoryStore) (resource : ResourceId) : Option Acl := s.acls.get? resource

/-- Every list, in the order of the resources. -/
def list (s : MemoryStore) : List Acl := s.acls.values

/-- Replaces a stored list; where none is stored nothing changes. Says whether there was one. -/
def update (s : MemoryStore) (acl : Acl) : Bool × MemoryStore :=
  if s.acls.contains acl.resource then (true, { s with acls := s.acls.insert acl.resource acl }) else (false, s)

/-- Drops the list of a resource. Says whether there was one. -/
def remove (s : MemoryStore) (resource : ResourceId) : Bool × MemoryStore :=
  (s.acls.contains resource, { s with acls := s.acls.erase resource })

def size (s : MemoryStore) : Nat := s.acls.size

end MemoryStore

/-- Where lists are kept: in memory, or in a place that cannot be reached. -/
inductive AclStore
  | memory (store : MemoryStore)
  | unavailable

/-- How a decision gets at the list of a resource. -/
abbrev AclLookup := ResourceId → Except Error (Option Acl)

namespace AclStore

def offline : Error := .internal "store offline"

def create (resource : ResourceId) (entries : List AclEntry) : AclStore → Except Error Acl × AclStore
  | memory store => ((store.create resource entries).1, memory (store.create resource entries).2)
  | unavailable => (.error offline, unavailable)

def lookup : AclStore → AclLookup
  | memory store => fun resource => .ok (store.get? resource)
  | unavailable => fun _ => .error offline

def list : AclStore → Except Error (List Acl)
  | memory store => .ok store.list
  | unavailable => .error offline

def update (acl : Acl) : AclStore → Except Error Bool × AclStore
  | memory store => (.ok (store.update acl).1, memory (store.update acl).2)
  | unavailable => (.error offline, unavailable)

def remove (resource : ResourceId) : AclStore → Except Error Bool × AclStore
  | memory store => (.ok (store.remove resource).1, memory (store.remove resource).2)
  | unavailable => (.error offline, unavailable)

/-- The number of lists, where it can be known. -/
def size? : AclStore → Option Nat
  | memory store => some store.size
  | unavailable => none

end AclStore

namespace AclLookup

/-- Whether a user, with the given roles if any, holds every requested bit on a resource. Without a list, or without
an entry that speaks of the user, access is refused. -/
def decide (lookup : AclLookup) (resource : ResourceId) (user : String) (roles : Option RoleGroup)
    (requested : Permission) : Except Error Decision := do
  match (← lookup resource).bind (·.effectivePermission user roles) with
  | none => pure .deny
  | some granted => pure (.ofBool (granted.contains requested))

/-- What a user holds on each of the resources. Those with nothing granted are left out. -/
def entitlements (lookup : AclLookup) (user : String) (roles : Option RoleGroup) (resources : List ResourceId) :
    Except Error (SortedMap ResourceId Permission) :=
  resources.foldlM (fun found resource => do
    match (← lookup resource).bind (·.effectivePermission user roles) with
    | none => pure found
    | some granted => pure (if granted.isEmpty then found else found.insert resource granted)) .empty

/-- The permission of the entry for exactly this identity. -/
def entryPermission (lookup : AclLookup) (resource : ResourceId) (identity : AclIdentity) :
    Except Error (Option Permission) := do
  pure ((← lookup resource).bind fun acl => (acl.entry? identity).map (·.permission))

end AclLookup

end AccessControl

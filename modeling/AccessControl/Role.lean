import AccessControl.SortedMap

namespace AccessControl

/-- The role every caller is taken to hold once the caller holds any role. -/
def anybody : String := "ANYBODY"

/-- The role of every caller that has been authenticated, under the same condition. -/
def anyAuthenticated : String := "**"

/-- Whether a role name is one of the two wildcards. Case counts. -/
def isWildcard (name : String) : Bool := name == anybody || name == anyAuthenticated

/-- A role without members. The parent is kept for information only; no check looks at it. -/
structure SimpleRole where
  name : String
  parent : Option String
  deriving DecidableEq, Repr

/-- A role is a single name or a named group of roles. A group owns its members, so it never contains itself. -/
inductive Role
  | simple (role : SimpleRole)
  | group (name : String) (members : List Role)
  deriving Inhabited, Repr

namespace Role

def named (name : String) : Role := simple ⟨name, none⟩

def name : Role → String
  | simple r => r.name
  | group name _ => name

def isGroup : Role → Bool
  | simple _ => false
  | group _ _ => true

/-- The direct members of a group. -/
def members : Role → List Role
  | simple _ => []
  | group _ members => members

mutual

/-- Equality of roles. Simple roles agree in name and parent. Groups agree in name, and each direct member of one
equals some direct member of the other; order and number do not count. -/
def same : Role → Role → Bool
  | simple a, simple b => a == b
  | group n ms, group n' ms' => n == n' && allAmong ms ms' && ms'.all fun b => isAmong ms b
  | simple _, group _ _ => false
  | group _ _, simple _ => false

/-- Whether every role of the first list equals one of the second. The recursion is on the first list, so its members
stand on the left here. Equality is symmetric (`Role.beq_symm`), so nothing changes when they stand on the right
(`Role.allAmong_eq_all_swapped`). -/
def allAmong : List Role → List Role → Bool
  | [], _ => true
  | m :: rest, others => (others.any fun b => same m b) && allAmong rest others

/-- Whether some role of the list equals the given one. -/
def isAmong : List Role → Role → Bool
  | [], _ => false
  | m :: rest, b => same m b || isAmong rest b

end

instance : BEq Role := ⟨same⟩

mutual

/-- The simple roles that can be reached, from left to right, with repetitions. -/
def leaves : Role → List SimpleRole
  | simple r => [r]
  | group _ ms => leavesOf ms

def leavesOf : List Role → List SimpleRole
  | [] => []
  | m :: rest => leaves m ++ leavesOf rest

end

/-- The names of the simple roles that can be reached. -/
def leafNames (r : Role) : SortedSet String := SortedSet.ofElements (r.leaves.map (·.name))

mutual

/-- Whether a simple role is contained. A simple role contains its own name and the wildcards; a group contains what
some member contains. -/
def admits : Role → SimpleRole → Bool
  | simple r, candidate => r.name == candidate.name || isWildcard candidate.name
  | group _ ms, candidate => someAdmits ms candidate

def someAdmits : List Role → SimpleRole → Bool
  | [], _ => false
  | m :: rest, candidate => admits m candidate || someAdmits rest candidate

end

mutual

/-- Whether a member of a group holds a simple role for it. A simple member has the name, or the name is a wildcard; a
nested group looks through its own members. -/
def memberHolds : Role → SimpleRole → Bool
  | simple own, wanted => own.name == wanted.name || isWildcard wanted.name
  | group _ inner, wanted => membersHold inner wanted

def membersHold : List Role → SimpleRole → Bool
  | [], _ => false
  | m :: rest, wanted => memberHolds m wanted || membersHold rest wanted

end

mutual

/-- Whether the first role contains the second. A group is contained when every member is. -/
def containsAll (r : Role) : Role → Bool
  | simple candidate => r.admits candidate
  | group _ candidates => containsEach r candidates

def containsEach (r : Role) : List Role → Bool
  | [] => true
  | candidate :: rest => containsAll r candidate && containsEach r rest

end

mutual

/-- A simple role is shown by its name, a group by its name and its members in parentheses. -/
def text : Role → String
  | simple r => r.name
  | group name ms => name ++ "(" ++ ",".intercalate (texts ms) ++ ")"

def texts : List Role → List String
  | [] => []
  | m :: rest => text m :: texts rest

end

end Role

/-- A named group of roles, such as the roles of a caller or those a method asks for. -/
structure RoleGroup where
  name : String
  members : List Role
  deriving Inhabited, Repr

namespace RoleGroup

def toRole (g : RoleGroup) : Role := .group g.name g.members

instance : Coe RoleGroup Role := ⟨toRole⟩

instance : BEq RoleGroup := ⟨fun a b => a.toRole == b.toRole⟩

def empty (name : String) : RoleGroup := ⟨name, []⟩

def size (g : RoleGroup) : Nat := g.members.length
def isEmpty (g : RoleGroup) : Bool := g.members.isEmpty

/-- Whether some direct member equals a role. -/
def hasMember (g : RoleGroup) (r : Role) : Bool := g.members.any (· == r)

/-- Appends a role unless an equal one is a direct member. Says whether it was appended. -/
def add (g : RoleGroup) (r : Role) : Bool × RoleGroup :=
  if g.hasMember r then (false, g) else (true, { g with members := g.members ++ [r] })

/-- Drops the direct members equal to a role. Says whether there were any. -/
def remove (g : RoleGroup) (r : Role) : Bool × RoleGroup :=
  let kept := g.members.filter fun m => !(m == r)
  (kept.length != g.members.length, { g with members := kept })

def clear (g : RoleGroup) : RoleGroup := { g with members := [] }

/-- Adds roles from left to right, leaving out each one that is already a member. -/
def addAll (g : RoleGroup) (roles : List Role) : RoleGroup := roles.foldl (fun g r => (g.add r).2) g

def withRoles (name : String) (roles : List Role) : RoleGroup := (empty name).addAll roles

/-- A group of simple roles without parents. -/
def ofNames (name : String) (names : List String) : RoleGroup := withRoles name (names.map Role.named)

def leaves (g : RoleGroup) : List SimpleRole := g.toRole.leaves

def leafNames (g : RoleGroup) : SortedSet String := g.toRole.leafNames

/-- Whether the group contains a role: some member contains a simple one, every member of a group is contained. -/
def containsAll (g : RoleGroup) (candidate : Role) : Bool := g.toRole.containsAll candidate

/-- Whether the group holds a simple role through one of its members. -/
def holdsSimple (g : RoleGroup) (wanted : SimpleRole) : Bool := Role.membersHold g.members wanted

/-- Whether a caller with this group holds a role of the given name. -/
def holds (g : RoleGroup) (name : String) : Bool := g.holdsSimple ⟨name, none⟩

/-- Whether at least one simple role of another group is held. -/
def holdsAny (g other : RoleGroup) : Bool := other.leaves.any g.holdsSimple

def text (g : RoleGroup) : String := g.toRole.text

end RoleGroup

end AccessControl

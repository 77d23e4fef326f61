/-! # Limits of a machine

Four numbers fixed when a machine is opened.  `Setting` names them, so that a configuration can be
read and built by name. -/
set_option autoImplicit false

namespace GuestVM

structure Config where
  /-- Initial reservation of the arena; it bounds nothing. -/
  arenaCapacity : UInt64 := 100
  /-- Calls nested deeper than this raise SystemStackError. -/
  maxCallDepth : UInt64 := 512
  funcallArgcMax : UInt64 := 16
  /-- Writes never make an array longer than this. -/
  maxArrayLen : UInt64 := 131072
  deriving DecidableEq, Inhabited

inductive Setting where
  | arenaCapacity | maxCallDepth | funcallArgcMax | maxArrayLen
  deriving DecidableEq

namespace Setting

def all : List Setting := [.arenaCapacity, .maxCallDepth, .funcallArgcMax, .maxArrayLen]

def name : Setting → String
  | .arenaCapacity => "arena_capacity"
  | .maxCallDepth => "max_call_depth"
  | .funcallArgcMax => "funcall_argc_max"
  | .maxArrayLen => "max_array_len"

def ofName? (s : String) : Option Setting := all.find? (·.name == s)

end Setting

namespace Config

def get (c : Config) : Setting → UInt64
  | .arenaCapacity => c.arenaCapacity
  | .maxCallDepth => c.maxCallDepth
  | .funcallArgcMax => c.funcallArgcMax
  | .maxArrayLen => c.maxArrayLen

def put (c : Config) (s : Setting) (n : UInt64) : Config :=
  match s with
  | .arenaCapacity => { c with arenaCapacity := n }
  | .maxCallDepth => { c with maxCallDepth := n }
  | .funcallArgcMax => { c with funcallArgcMax := n }
  | .maxArrayLen => { c with maxArrayLen := n }

/-- Builds on `c`: a call depth of zero is raised to one. -/
def set (c : Config) (s : Setting) (n : UInt64) : Config :=
  c.put s (if s = .maxCallDepth ∧ n = 0 then 1 else n)

end Config

end GuestVM

/-
Capabilities and the policy table of the server (virt_acl.c): what a
CID may ask for.

A rule that is not in use is `none`. The quota, the priority and the
name of a rule are for the admin socket and the pools; no check reads
them.
-/
import AmbaVirt.Basic

namespace AmbaVirt.Server

/-- The `AMBA_VIRT_CAP_*` bits of amba_virt.h. -/
inductive Cap
  | ping | querySelf | queryPeers | queryTopo | memAlloc | memResize
  | devConfig | gdmaCopy | gdmaPitch | cavalryPathB | cavalryPathA
  | cavalryRegister | iavStream | dmaSlave | iavDev
  deriving DecidableEq

def Cap.bit : Cap → UInt32
  | ping => 0x1
  | querySelf => 0x2
  | queryPeers => 0x4
  | queryTopo => 0x8
  | memAlloc => 0x10
  | memResize => 0x20
  | devConfig => 0x40
  | gdmaCopy => 0x80
  | gdmaPitch => 0x100
  | cavalryPathB => 0x200
  | cavalryPathA => 0x400
  | cavalryRegister => 0x800
  | iavStream => 0x1000
  | dmaSlave => 0x2000
  | iavDev => 0x4000

def capWord (l : List Cap) : UInt32 := l.foldl (fun w c => w ||| c.bit) 0

/-- `AMBA_VIRT_ROLE_UNTRUSTED`. -/
def ROLE_UNTRUSTED : UInt32 :=
  capWord [.ping, .querySelf, .cavalryPathB, .cavalryRegister]

/-- `AMBA_VIRT_ROLE_STANDARD`. -/
def ROLE_STANDARD : UInt32 :=
  ROLE_UNTRUSTED ||| capWord [.memAlloc, .devConfig, .gdmaCopy, .gdmaPitch, .dmaSlave, .iavDev]

/-- `struct virt_acl_entry` of a rule in use, the fields a check reads. -/
structure AclEntry where
  cid : UInt32
  caps : UInt32
  deriving DecidableEq

/-- `g_acl_entries`. -/
abbrev Acl := Fin 16 → Option AclEntry

namespace Acl

/-- `virt_acl_get_caps`: the first rule of the CID, or the standard
role. -/
def getCaps (a : Acl) (cid : UInt32) : UInt32 :=
  match Fin.findSome? fun i => (a i).filter fun e => e.cid == cid with
  | some e => e.caps
  | none => ROLE_STANDARD

/-- `virt_acl_has_cap`. -/
def hasCap (a : Acl) (cid : UInt32) (cap : Cap) : Bool :=
  a.getCaps cid &&& cap.bit == cap.bit

/-- `virt_acl_remove_rule`. -/
def removeRule (a : Acl) (cid : UInt32) : Acl :=
  match Fin.find? fun i => (a i).any fun e => e.cid == cid with
  | some i => Function.update a i none
  | none => a

end Acl

end AmbaVirt.Server

/-
The slave DMA handlers of the server (virt_dma_broker.c): which channel
a CID may use, and the configuration, submission and termination of a
transfer.

A submission marks its channel, waits for the kernel to finish the
transfer and clears the mark again; as one call it leaves the channel
idle. The watchdog only ever clears the same mark and is left out. A
channel number of 16 and more is served without a record.
-/
import AmbaVirt.Lib.Guard
import AmbaVirt.Server.Acl

namespace AmbaVirt.Server

open Lib

-- ==== channels

/-- `struct dma_channel_state`. -/
structure Channel where
  active : Bool := false
  ownerCid : UInt32 := 0
  cookie : UInt32 := 0
  direction : UInt32 := 0
  bufOffset : UInt32 := 0
  bufLen : UInt32 := 0
  deriving DecidableEq

/-- `g_channels`. -/
abbrev Channels := Fin 16 → Channel

/-- `g_dma_acl_table`: CID, transmit and receive channel. -/
def dmaAclTable : List (UInt32 × UInt32 × UInt32) :=
  [(4, 11, 12), (4, 13, 14), (5, 13, 14), (5, 15, 16), (6, 11, 12),
    (6, 13, 14), (7, 11, 12), (7, 13, 14), (7, 15, 16), (8, 13, 14),
    (8, 15, 16)]

/-- `virt_dma_validate_channel_access`. -/
def validateChannelAccess (cid channel : UInt32) : Except Errno Unit :=
  if cid ≥ 3 ∧ channel ≥ 11 ∧ channel ≤ 16 then .ok ()
  else if dmaAclTable.any fun (c, tx, rx) =>
      c == cid && (tx == channel || rx == channel) then .ok ()
  else .error .EPERM

/-- `virt_dma_validate_buffer_bounds`; the sum is taken in 64 bits. -/
def validateBufferBounds (offset length windowSize : UInt64) : Except Errno Unit := do
  refuseIf (length = 0) .EINVAL
  refuseIf (offset ≥ windowSize) .ERANGE
  refuseIf (offset + length > windowSize) .ERANGE

/-- `VIRT_DMA_MAX_TRANSFER_LEN`. -/
def VIRT_DMA_MAX_TRANSFER_LEN : UInt32 := 0x3FFFFF

-- ==== requests

/-- `struct amba_virt_dma_slave_cfg`. -/
structure SlaveCfg where
  channel : UInt32
  direction : UInt32
  srcAddrLo : UInt32
  dstAddrLo : UInt32
  srcAddrWidth : UInt32
  srcMaxburst : UInt32
  deriving DecidableEq

/-- `struct amba_virt_dma_submit`. -/
structure DmaSubmit where
  channel : UInt32
  direction : UInt32
  bufOffset : UInt32
  bufLen : UInt32
  cookie : UInt32
  deriving DecidableEq

/-- `struct amba_virt_dma_slave_xfer`, what the kernel is asked to do. -/
structure SlaveXfer where
  channel : UInt32
  direction : UInt32
  bufPhys : UInt64
  bufLen : UInt32
  deriving DecidableEq

-- ==== handlers

/-- `virt_dma_handle_slave_cfg`: an accepted configuration is only
reported. -/
def handleSlaveCfg (acl : Acl) (cid : UInt32) (req : SlaveCfg) : Except Errno Unit := do
  validateChannelAccess cid req.channel
  refuseIf (acl.hasCap cid .dmaSlave = false) .EPERM
  refuseIf (req.direction ≠ 1 ∧ req.direction ≠ 2) .EINVAL
  refuseIf (req.srcAddrWidth ≠ 1 ∧ req.srcAddrWidth ≠ 2 ∧ req.srcAddrWidth ≠ 4) .EINVAL

/-- The record of a transfer, where there is one for its channel. -/
def Channels.record (ch : Channels) (cid : UInt32) (req : DmaSubmit) :
    Channels :=
  if h : req.channel.toNat < 16 then
    Function.update ch ⟨req.channel.toNat, h⟩
      { active := false, ownerCid := cid, cookie := req.cookie
        direction := req.direction, bufOffset := req.bufOffset
        bufLen := req.bufLen }
  else ch

def Channels.busy (ch : Channels) (channel : UInt32) : Bool :=
  if h : channel.toNat < 16 then (ch ⟨channel.toNat, h⟩).active else false

/-- `virt_dma_handle_submit`, up to the answer of the kernel. -/
def handleSubmit (ch : Channels) (acl : Acl) (cid : UInt32)
    (tenantPhys tenantSize : UInt64) (req : DmaSubmit) :
    Except Errno (SlaveXfer × Channels) := do
  validateChannelAccess cid req.channel
  refuseIf (acl.hasCap cid .dmaSlave = false) .EPERM
  validateBufferBounds req.bufOffset.toUInt64 req.bufLen.toUInt64 tenantSize
  refuseIf (req.bufLen > VIRT_DMA_MAX_TRANSFER_LEN) .E2BIG
  refuseIf (ch.busy req.channel = true) .EBUSY
  return ({ channel := req.channel, direction := req.direction
            bufPhys := tenantPhys + req.bufOffset.toUInt64
            bufLen := req.bufLen }, ch.record cid req)

/-- `virt_dma_handle_terminate`: the owner of an active transfer, and no
capability, is asked for. -/
def handleTerminate (ch : Channels) (cid channel : UInt32) : Except Errno Channels := do
  validateChannelAccess cid channel
  if h : channel.toNat < 16 then
    if (ch ⟨channel.toNat, h⟩).active then
      refuseIf ((ch ⟨channel.toNat, h⟩).ownerCid ≠ cid) .EPERM
      return Function.update ch ⟨channel.toNat, h⟩ { ch ⟨channel.toNat, h⟩ with active := false }
    else return ch
  else return ch

end AmbaVirt.Server

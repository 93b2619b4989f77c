import AxiomRT.User.Text

/-!
# The storage service

A read-only image of eight blocks behind a bounded text protocol: one request in, one reply out.
-/

namespace AxiomRT.User

open Lib

/-- Send one `OK data=<block>` reply assembled in the 64-byte reply buffer. -/
def storageSendBlock (block : List UInt8) : UserProg Unit :=
  let hdr := umsg "OK data="
  reply (hdr ++ block.take (64 - hdr.length))

/-- Answer a read of one of the upper blocks. -/
def blockReplyHi (n : UInt64) : UserProg Unit :=
  if n = 4 then storageSendBlock (umsg "AXAPP1 hello 0 4096 4096 1 console 8192 0a6d")
  else if n = 5 then storageSendBlock (umsg "AXAPP1 counter 0 4096 4096 1 console 8192 0b59")
  else if n = 6 then storageSendBlock (umsg "AXAPP1 fault_demo 0 4096 4096 1 none 8192 0b36")
  else storageSendBlock (umsg "reserved")

/-- Answer one read. -/
def blockReply (n : UInt64) : UserProg Unit :=
  if n = 0 then storageSendBlock (umsg "AXSTOR v1 blocks=8 bs=48 ro=1")
  else if n = 1 then storageSendBlock (umsg "AxiomRT v1.6-storage-backed-loader eval stage")
  else if n = 2 then storageSendBlock (umsg "AxiomRT microkernel safety runtime")
  else if n = 3 then storageSendBlock (umsg "apps: hello counter fault_demo prio=2")
  else if n ≤ 7 then blockReplyHi n
  else reply (umsg "ERR bad_block")

/-- `READ_RANGE start=<n> count=<m>`: single-block only. -/
def storageRange (req : List UInt8) : UserProg Unit :=
  let (start, i) := parseDecStop req (umsg "READ_RANGE start=").length
  let after := i + (umsg " count=").length
  if start = u64Max ∨ req.length < after ∨
      !eqs ((req.drop i).take (umsg " count=").length) (umsg " count=") then
    reply (umsg "ERR malformed")
  else
    let (count, stop) := parseDecStop req after
    if count = u64Max ∨ stop ≠ req.length then reply (umsg "ERR malformed")
    else if count ≠ 1 then reply (umsg "ERR too_many_blocks")
    else blockReply start

/-- One iteration of `storage_body`: answer one received request. -/
def storageHandle (req : List UInt8) : UserProg Unit :=
  if eqs req (umsg "INFO") then reply (umsg "OK block_size=48 blocks=8 readonly=true")
  else if startsWith req (umsg "READ block=") then
    let (blk, stop) := parseDecStop req (umsg "READ block=").length
    if blk = u64Max ∨ stop ≠ req.length then reply (umsg "ERR malformed") else blockReply blk
  else if startsWith req (umsg "READ_RANGE start=") then storageRange req
  else reply (umsg "ERR malformed")

end AxiomRT.User

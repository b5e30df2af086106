import Libsfp.Session.Network

/-!
# Calls

One context and the program that uses it: what the program can call, what it is told, and that
between two calls a context is always idle and its receiver holds exactly what it has collected of
the current frame. The results about one context under arbitrary calls start from here.
-/

namespace Libsfp

open Lib (run)

variable [SfpConfig]

/-- The callbacks of a context that are set. -/
structure Callbacks where
  deliver : Bool
  lock : Bool
  unlock : Bool

/-- `sfpInit` on memory with arbitrary content, then the write callback and the given ones. -/
def SFPcontext.initWith (cb : Callbacks) (memory : SFPcontext) : SFPcontext :=
  sfpSetUnlockCallback cb.unlock (sfpSetLockCallback cb.lock
    (sfpSetDeliverCallback cb.deliver (sfpSetWriteCallback true (sfpInit memory))))

/-- A call. `stack` is the memory of the local variable of `sfpWritePacket`, `buf` the length of
the buffer passed to `sfpDeliverOctet`, if there is one. -/
inductive Call where
  | connect
  | write (stack : Vector UInt8 sfpConfigMaxPacketSize) (packet : List UInt8)
      (le : packet.length ≤ sfpConfigMaxPacketSize)
  | deliver (octet : UInt8) (buf : Option Nat)
  | isConnected

/-- What a call hands back. -/
inductive Answer where
  | none
  | written (outlen : Nat)
  | received (result : DeliverResult)
  | connected (b : Bool)
  deriving DecidableEq, Repr

def Call.perform (m : Machine) : Call → Machine × Answer
  | .connect => (sfpConnect m, .none)
  | .write stack packet le =>
    let (m, outlen) := sfpWritePacket stack packet le m
    (m, .written outlen)
  | .deliver octet buf =>
    let (m, result) := sfpDeliverOctet octet buf m
    (m, .received result)
  | .isConnected => (m, .connected (sfpIsConnected m.ctx))

/-- The machine after a call. -/
def Machine.call (m : Machine) (c : Call) : Machine := (c.perform m).1

/-- The caller's buffer has no influence on the context. -/
theorem fst_sfpDeliverOctet (octet : UInt8) (buf : Option Nat) (m : Machine) :
    (sfpDeliverOctet octet buf m).1 = (sfpDeliverOctet octet none m).1 := by
  unfold sfpDeliverOctet
  split
  · cases m.ctx.rx.frameState <;> rfl
  · split
    · rfl
    · cases m.ctx.rx.frameState <;> rfl

/-- The buffer of the caller has no part in what happens to the context. -/
theorem call_deliver (m : Machine) (octet : UInt8) (buf : Option Nat) :
    m.call (.deliver octet buf) = (sfpDeliverOctet octet none m).1 :=
  fst_sfpDeliverOctet octet buf m

/-! ## Between calls -/

/-- What the receiver has collected of the current frame. -/
def SFPcontext.content (c : SFPcontext) : List UInt8 :=
  match c.rx.frameState with
  | .new => []
  | .receiving => c.rx.header :: c.rx.packet.octets

/-- The collected content can be read off the context. -/
theorem SFPreceiver.Holds.content_eq {c : SFPcontext} {content : List UInt8}
    (h : c.rx.Holds content) : c.content = content := by
  have hstate := h.frameState
  cases content with
  | nil =>
    rw [if_pos rfl] at hstate
    rw [SFPcontext.content, hstate]
  | cons a rest =>
    rw [if_neg (List.cons_ne_nil a rest)] at hstate
    rw [SFPcontext.content, hstate]
    simp only
    rw [h.header a rfl, h.packet, List.tail_cons]

/-- A context between two calls. -/
structure SFPcontext.Between (c : SFPcontext) : Prop where
  idle : c.Idle
  holds : c.rx.Holds c.content

/-- A context between API calls holds some content. -/
theorem SFPcontext.between_of_holds {c : SFPcontext} {content : List UInt8} (hidle : c.Idle)
    (h : c.rx.Holds content) : c.Between :=
  ⟨hidle, by rw [h.content_eq]; exact h⟩

/-- So does one that `sfpInit` has set up. -/
theorem SFPcontext.between_initWith (cb : Callbacks) (memory : SFPcontext) :
    (memory.initWith cb).Between := by
  have hfresh := memory.fresh_setUp.holds
  have hholds : (memory.initWith cb).rx.Holds [] :=
    ⟨hfresh.frameState, hfresh.crc, hfresh.header, hfresh.packet⟩
  refine SFPcontext.between_of_holds ?_ hholds
  exact ⟨rfl, rfl, memory.idle_setUp.txSeq_lt, memory.idle_setUp.rxSeq_lt⟩

theorem SFPcontext.abs_initWith (cb : Callbacks) (memory : SFPcontext) :
    (memory.initWith cb).abs = .init (memory.tx.history.entries.map SFPpacket.octets) := rfl

/-- What an endpoint is told. -/
inductive Input (α : Type*) where
  | connect
  | write (packet : α)
  | frame (f : Frame α)
  deriving DecidableEq, Repr

def Endpoint.react {α : Type*} (capacity : Nat) (e : Endpoint α) : Input α → Reaction α
  | .connect => e.connect
  | .write packet => e.write capacity packet
  | .frame f => e.receive f

/-- What a call tells the endpoint: only a `FLAG` ends a frame. -/
def Call.input (c : SFPcontext) : Call → Input (List UInt8)
  | .connect => .connect
  | .write _ packet _ => .write packet
  | .deliver octet _ =>
    .frame (if sfpFlag = octet then (verdict c.content).toFrame else .silent)
  | .isConnected => .frame .silent

/-- `m'` is `m` after a call: it did what the endpoint does, and is between calls again. -/
structure Serves (m m' : Machine) (r : Reaction (List UInt8)) : Prop where
  between : m'.ctx.Between
  abs : m'.ctx.abs = r.endpoint
  deliver : m'.ctx.rx.deliver = m.ctx.rx.deliver
  wire : m'.wire = m.wire ++ r.sent.flatMap Frame.octets
  delivered : m'.delivered = m.delivered ++ if m.ctx.rx.deliver then r.got else []

/-- What a function does serves as a call, if the receiver can be read afterwards, -/
theorem Does.serves {m m' : Machine} {r : Reaction (List UInt8)} (h : Does m m' r)
    {content : List UInt8} (hholds : m'.ctx.rx.Holds content) : Serves m m' r :=
  ⟨SFPcontext.between_of_holds h.idle hholds, h.abs, h.deliver, h.wire, h.delivered⟩

/-- as does listening -/
theorem Listens.serves {m m' : Machine} (h : Listens m m') (hm : m.ctx.Idle)
    {content : List UInt8} (hholds : m'.ctx.rx.Holds content) :
    Serves m m' ⟨m.ctx.abs, [], []⟩ where
  between := SFPcontext.between_of_holds (h.idle hm) hholds
  abs := h.abs
  deliver := h.deliver
  wire := by simp [Machine.wire, h.trace]
  delivered := by simp [Machine.delivered, Machine.calls, h.trace]

/-- and hearing a frame. -/
theorem Hears.serves {m m' : Machine} {r : Reaction (List UInt8)} {verdicts : List Event}
    (h : Hears m m' r verdicts) {content : List UInt8} (hholds : m'.ctx.rx.Holds content) :
    Serves m m' r :=
  ⟨SFPcontext.between_of_holds h.idle hholds, h.abs, h.deliver, h.wire, h.delivered⟩

/-- **Every call does what the endpoint does**, octet by octet. -/
theorem serves_call {m : Machine} (hm : m.ctx.Between) (c : Call) :
    Serves m (m.call c) (m.ctx.abs.react sfpConfigHistoryCapacity (c.input m.ctx)) := by
  cases c with
  | connect => exact (does_sfpConnect hm.idle).serves (fresh_sfpConnect hm.idle).holds
  | write stack packet le =>
    have hdoes := does_sfpWritePacket hm.idle stack packet le
    have hrx := rx_sfpWritePacket hm.idle stack packet le
    have hholds := hm.holds
    rw [← hrx] at hholds
    exact hdoes.serves hholds
  | deliver octet buf =>
    rw [call_deliver]
    by_cases hflag : sfpFlag = octet
    · subst hflag
      obtain ⟨hhears, hfresh⟩ := sfpDeliverOctet_flag hm.idle hm.holds
      rw [Call.input, if_pos rfl]
      exact hhears.serves hfresh.holds
    · obtain ⟨content, hlistens, hholds, -⟩ :=
        sfpDeliverOctet_spec hm.holds (fun h => hflag h.symm) []
      rw [Call.input, if_neg hflag]
      exact hlistens.serves hm.idle hholds
  | isConnected => exact (Listens.refl m).serves hm.idle hm.holds

/-! ## Runs -/

/-- A sequence of calls leaves a context between calls. -/
theorem between_run {m : Machine} (hm : m.ctx.Between) (cs : List Call) :
    (run Machine.call m cs).ctx.Between := by
  have hstep : ∀ (m : Machine) c, m.ctx.Between → (m.call c).ctx.Between :=
    fun _ c h => (serves_call h c).between
  exact Lib.run_invariant_of_step hstep cs hm

/-- The machine of a context as a program sets it up, after some calls. -/
def afterCalls (cb : Callbacks) (memory : SFPcontext) (cs : List Call) : Machine :=
  run Machine.call (.of (memory.initWith cb)) cs

end Libsfp

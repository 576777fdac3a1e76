/-
The two token buckets of `virt_dma_handle_request` (virt_dma_broker.c).

A refill adds the tokens of the time since the last one, and starts the
clock again whether it added any or not. What the division leaves over is
gone, so requests closer together than one token take never see a refill
at all. The product is taken in 64 bits and the sum is narrowed to 32;
both wrap after a long silence.

Next to each bucket runs an exact one, counted in billionths of a token.
The two differ by what the divisions have dropped, which the times of the
requests determine (`Bucket.dropped`).
-/
import AmbaVirt.Lib.Trans

namespace AmbaVirt.Dma

open Lib Lib.System

-- ==== the limiter

/-- One bucket: its rate in tokens a second, and what it holds at most. -/
structure Bucket where
  rate : UInt64
  burst : UInt32

def opBucket : Bucket := ⟨2000, 64⟩

def byteBucket : Bucket := ⟨50 * 1024 * 1024, 2 * 1024 * 1024⟩

def Bucket.refill (k : Bucket) (tokens : UInt32) (elapsedNs : UInt64) : UInt32 :=
  let added := elapsedNs * k.rate / 1000000000
  if added > 0 then
    let sum := (tokens.toUInt64 + added).toUInt32
    if sum > k.burst then k.burst else sum
  else tokens

/-- What the limiter reads of `struct cid_lease_binding`. -/
structure Tokens where
  lastTokenNs : UInt64
  opTokens : UInt32
  byteTokens : UInt32
  deriving DecidableEq

/-- `virt_dma_bind_cid_lease_with_cap`. -/
def Tokens.bind (now : UInt64) : Tokens := ⟨now, opBucket.burst, byteBucket.burst⟩

def Tokens.refill (t : Tokens) (now : UInt64) : Tokens where
  lastTokenNs := now
  opTokens := opBucket.refill t.opTokens (now - t.lastTokenNs)
  byteTokens := byteBucket.refill t.byteTokens (now - t.lastTokenNs)

def Tokens.Admits (t : Tokens) (length : UInt32) : Prop :=
  ¬ (t.opTokens < 1 ∨ t.byteTokens < length)
  deriving Decidable

def Tokens.request (t : Tokens) (now : UInt64) (length : UInt32) : Tokens :=
  let t := t.refill now
  if t.Admits length then
    { t with opTokens := t.opTokens - 1, byteTokens := t.byteTokens - length }
  else t

-- ==== exact buckets

/-- An exact bucket after `ns` nanoseconds. -/
def Bucket.fill (k : Bucket) (x ns : Nat) : Nat :=
  min (1000000000 * k.burst.toNat) (x + ns * k.rate.toNat)

def spend (x n : Nat) : Nat := x - 1000000000 * n

/-- The buckets of a binding, and the exact ones in billionths of a token. -/
structure Limiter where
  tokens : Tokens
  ops : Nat
  bytes : Nat
  deriving DecidableEq

def Limiter.bind (now : UInt64) : Limiter :=
  ⟨.bind now, 1000000000 * opBucket.burst.toNat, 1000000000 * byteBucket.burst.toNat⟩

/-- The exact buckets are filled for the same time and pay for the same
requests. -/
def Limiter.request (s : Limiter) (now : UInt64) (length : UInt32) : Limiter :=
  let ns := now.toNat - s.tokens.lastTokenNs.toNat
  let ops := opBucket.fill s.ops ns
  let bytes := byteBucket.fill s.bytes ns
  let tokens := s.tokens.request now length
  if (s.tokens.refill now).Admits length then ⟨tokens, spend ops 1, spend bytes length.toNat⟩
  else ⟨tokens, ops, bytes⟩

/-- A binding and its requests, on a clock that does not go back. -/
def limiterSystem : System Limiter (UInt64 × UInt32) where
  init s := ∃ now, s = .bind now
  step s e s' := s.tokens.lastTokenNs ≤ e.1 ∧ s' = s.request e.1 e.2

-- ==== within what was dropped

def Bucket.InRange (k : Bucket) (tokens : UInt32) (ns : Nat) : Prop :=
  ns * k.rate.toNat < 2 ^ 64 ∧ tokens.toNat + ns * k.rate.toNat / 1000000000 < 2 ^ 32
  deriving Decidable

def InRange (s : Limiter) (e : UInt64 × UInt32) : Prop :=
  opBucket.InRange s.tokens.opTokens (e.1.toNat - s.tokens.lastTokenNs.toNat) ∧
    byteBucket.InRange s.tokens.byteTokens (e.1.toNat - s.tokens.lastTokenNs.toNat)

/-- What the divisions drop at requests with these times, `last` being the
time of the refill before them. -/
def Bucket.dropped (k : Bucket) (last : UInt64) : List (UInt64 × UInt32) → Nat
  | [] => 0
  | e :: es => (e.1.toNat - last.toNat) * k.rate.toNat % 1000000000 + k.dropped e.1 es

def lastTime (now : UInt64) (es : List (UInt64 × UInt32)) : UInt64 := es.foldl (fun _ e => e.1) now

/-- The bucket holds the exact amount, less at most `lost`. -/
structure Bucket.Near (k : Bucket) (tokens : UInt32) (x lost : Nat) : Prop where
  burst : tokens ≤ k.burst
  below : 1000000000 * tokens.toNat ≤ x
  within : x ≤ 1000000000 * tokens.toNat + lost

variable {k : Bucket} {tokens : UInt32} {x lost : Nat}

theorem Bucket.dropped_append (now : UInt64) (es : List (UInt64 × UInt32)) (e : UInt64 × UInt32) :
    k.dropped now (es ++ [e]) = k.dropped now es +
      (e.1.toNat - (lastTime now es).toNat) * k.rate.toNat % 1000000000 := by
  induction es generalizing now with
  | nil => simp [Bucket.dropped, lastTime]
  | cons e' es ih =>
    simp only [List.cons_append, Bucket.dropped, ih]
    exact (Nat.add_assoc ..).symm

theorem Bucket.Near.refill {ns : UInt64} (h : k.Near tokens x lost)
    (hr : k.InRange tokens ns.toNat) :
    k.Near (k.refill tokens ns) (k.fill x ns.toNat)
      (lost + ns.toNat * k.rate.toNat % 1000000000) := by
  obtain ⟨hmul, hsum⟩ := hr
  obtain ⟨hb, hlo, hhi⟩ := h
  have hadded : (ns * k.rate / 1000000000).toNat = ns.toNat * k.rate.toNat / 1000000000 := by
    rw [UInt64.toNat_div, UInt64.toNat_mul, Nat.mod_eq_of_lt hmul]
    rfl
  have hnarrow : (tokens.toUInt64 + ns * k.rate / 1000000000).toUInt32.toNat
      = tokens.toNat + ns.toNat * k.rate.toNat / 1000000000 := by
    simp [hadded]
    omega
  unfold Bucket.refill Bucket.fill
  rw [UInt32.le_iff_toNat_le] at hb
  generalize ns.toNat * k.rate.toNat = v at hadded hnarrow
  constructor
  all_goals
    simp only [gt_iff_lt, UInt64.lt_iff_toNat_lt, UInt32.lt_iff_toNat_lt, UInt32.le_iff_toNat_le,
      hadded, hnarrow, UInt64.toNat_zero]
    split_ifs <;> omega

theorem Bucket.Near.pay {n : UInt32} (h : k.Near tokens x lost) (hn : n ≤ tokens) :
    k.Near (tokens - n) (spend x n.toNat) lost := by
  obtain ⟨hb, hlo, hhi⟩ := h
  rw [UInt32.le_iff_toNat_le] at hb hn
  have hsub := UInt32.toNat_sub_of_le _ _ (UInt32.le_iff_toNat_le.mpr hn)
  constructor
  all_goals
    simp only [UInt32.le_iff_toNat_le, hsub, spend]
    omega

/-- Both buckets of a binding made at `now`, after the requests `es`. -/
structure Limiter.Near (now : UInt64) (es : List (UInt64 × UInt32)) (s : Limiter) : Prop where
  last : s.tokens.lastTokenNs = lastTime now es
  ops : opBucket.Near s.tokens.opTokens s.ops (opBucket.dropped now es)
  bytes : byteBucket.Near s.tokens.byteTokens s.bytes (byteBucket.dropped now es)

theorem Limiter.Near.request {now : UInt64} {es : List (UInt64 × UInt32)} {s : Limiter}
    (h : s.Near now es) {e : UInt64 × UInt32} (hle : s.tokens.lastTokenNs ≤ e.1)
    (hr : InRange s e) : (s.request e.1 e.2).Near now (es ++ [e]) := by
  have hns := UInt64.toNat_sub_of_le _ _ hle
  obtain ⟨hop, hbyte⟩ := hr
  rw [← hns] at hop hbyte
  have hops := h.ops.refill hop
  have hbytes := h.bytes.refill hbyte
  have hdrop (k : Bucket) : k.dropped now (es ++ [e]) = k.dropped now es +
      (e.1 - s.tokens.lastTokenNs).toNat * k.rate.toNat % 1000000000 := by
    rw [k.dropped_append, ← h.last, hns]
  rw [← hdrop] at hops hbytes
  have hlast : e.1 = lastTime now (es ++ [e]) := by simp [lastTime]
  unfold Limiter.request Tokens.request
  rw [← hns]
  dsimp only
  split
  case isTrue hadm =>
    obtain ⟨hone, hlen⟩ := not_or.mp hadm
    exact ⟨hlast, hops.pay (UInt32.not_lt.mp hone), hbytes.pay (UInt32.not_lt.mp hlen)⟩
  case isFalse => exact ⟨hlast, hops, hbytes⟩

/-- Within one token below the exact amount. -/
def Within (tokens : UInt32) (x : Nat) : Prop :=
  1000000000 * tokens.toNat ≤ x ∧ x ≤ 1000000000 * (tokens.toNat + 1)

/-- Requests whose refills are in range and whose times make the divisions
drop at most one token leave both buckets within one token of the exact
ones. -/
theorem tokens_near {now : UInt64} {es : List (UInt64 × UInt32)} {s : Limiter}
    (h : (limiterSystem.restrict InRange).Run (.bind now) es s)
    (hop : opBucket.dropped now es ≤ 1000000000)
    (hbyte : byteBucket.dropped now es ≤ 1000000000) :
    Within s.tokens.opTokens s.ops ∧ Within s.tokens.byteTokens s.bytes := by
  have hnear : s.Near now es := by
    refine Run.induct (I := fun es s => s.Near now es) ?_ ?_ h
    · refine ⟨rfl, ?_, ?_⟩ <;> constructor <;> simp [Limiter.bind, Tokens.bind]
    rintro es s e s' - ih ⟨hr, hle, rfl⟩
    exact ih.request hle hr
  obtain ⟨-, ⟨-, hlo, hhi⟩, -, hlo', hhi'⟩ := hnear
  constructor <;> constructor <;> omega

/-- Requests 300 us and 450 us after a binding: the divisions drop 0.6 and
0.3 of an operation. -/
def sampleLimiter : Limiter := ((Limiter.bind 0).request 300000 4096).request 450000 0

theorem tokens_near_us : Within sampleLimiter.tokens.opTokens sampleLimiter.ops := by
  have hrun : (limiterSystem.restrict InRange).Run (.bind 0)
      ([] ++ [(300000, 4096)] ++ [(450000, 0)]) sampleLimiter :=
    .snoc (.snoc (.nil _) ⟨⟨by decide, by decide⟩, by decide, rfl⟩)
      ⟨⟨by decide, by decide⟩, by decide, rfl⟩
  exact (tokens_near hrun (by decide) (by decide)).1

/-- Three requests within a millisecond: two refills add nothing, and 1.6
tokens are missing. After six minutes of silence the product wraps, and
the empty bucket stays empty. -/
theorem tokens_lost : (∃ s, limiterSystem.Reachable s ∧
      1000000000 * s.tokens.opTokens.toNat + 1600000000 = s.ops) ∧
    ∃ s, limiterSystem.Reachable s ∧ s.tokens.byteTokens = 0 ∧
      s.bytes = 1000000000 * byteBucket.burst.toNat := by
  have start : limiterSystem.Reachable (.bind 0) := .init ⟨0, rfl⟩
  have next {s : Limiter} (hs : limiterSystem.Reachable s) (now : UInt64) (length : UInt32)
      (hle : s.tokens.lastTokenNs ≤ now) : limiterSystem.Reachable (s.request now length) :=
    hs.step (e := (now, length)) ⟨hle, rfl⟩
  constructor
  · exact ⟨_, next (next (next start 0 0 (by decide)) 400000 0 (by decide)) 800000 0 (by decide),
      by decide⟩
  · exact ⟨_, next (next start 0 0x200000 (by decide)) 351843720889 0 (by decide), by decide⟩

end AmbaVirt.Dma

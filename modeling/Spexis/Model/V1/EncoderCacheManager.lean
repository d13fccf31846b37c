import Spexis.Model.V1.KVCacheUtils

/-! # The encoder cache

The space of the encoder outputs of multi-modal requests. -/

namespace Spexis.V1

open Python

structure EncoderCacheManager where
  numFreeSlots : ℤ
  /-- An absent key is the empty set. -/
  cached : ReqId → List ℕ
  freed : List (ReqId × ℕ)

namespace Request

def hasEncoderInputs (r : Request) : Bool :=
  r.mmPositions ≠ []

/-- `get_num_encoder_tokens`; every input has a position. -/
def getNumEncoderTokens (r : Request) (inputId : ℕ) : ℕ :=
  (r.mmPositions[inputId]?.map PlaceholderRange.length).getD 0

end Request

namespace EncoderCacheManager

def init (cacheSize : ℕ) : EncoderCacheManager where
  numFreeSlots := cacheSize
  cached := fun _ => []
  freed := []

def hasCache (e : EncoderCacheManager) (reqId : ReqId) (inputId : ℕ) : Bool :=
  inputId ∈ e.cached reqId

def canAllocate (e : EncoderCacheManager) (r : Request) (inputId : ℕ) : Bool :=
  (r.getNumEncoderTokens inputId : ℤ) ≤ e.numFreeSlots

def allocate (e : EncoderCacheManager) (reqId : ReqId) (r : Request) (inputId : ℕ) :
    EncoderCacheManager :=
  { e with
    cached := Function.update e.cached reqId (setAdd (e.cached reqId) inputId)
    numFreeSlots := e.numFreeSlots - r.getNumEncoderTokens inputId }

def freeEncoderInput (e : EncoderCacheManager) (reqId : ReqId) (r : Request) (inputId : ℕ) :
    EncoderCacheManager :=
  if e.cached reqId = [] then e
  else
    { e with
      cached := Function.update e.cached reqId ((e.cached reqId).erase inputId)
      numFreeSlots := e.numFreeSlots + r.getNumEncoderTokens inputId
      freed := e.freed ++ [(reqId, inputId)] }

def free (e : EncoderCacheManager) (reqId : ReqId) (r : Request) : EncoderCacheManager :=
  (e.cached reqId).foldl (fun e inputId => e.freeEncoderInput reqId r inputId) e

/-- The freed inputs, which are forgotten. -/
def getFreedIds (e : EncoderCacheManager) : List (ReqId × ℕ) × EncoderCacheManager :=
  (e.freed, { e with freed := [] })

end EncoderCacheManager

end Spexis.V1

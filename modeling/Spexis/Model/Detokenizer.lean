import Spexis.Library.Python

/-! # Incremental detokenization

The text of a request grows by what its new tokens decode to, and stops at a stop string. Texts are
lists of characters. -/

namespace Spexis

open Python

/-- What `detokenize_incrementally` returns for the last token of a request. -/
structure Detokenized (χ : Type) where
  newTokens : List (List χ)
  newDecodedTokenText : List χ
  prefixOffset : ℕ
  readOffset : ℕ

/-- `detokenize_incrementally` with its tokenizer, as a function of the token ids so far, the
tokens before, the two offsets and the two flags. -/
abbrev Tokenizer (χ : Type) : Type :=
  List ℕ → List (List χ) → ℕ → ℕ → Bool → Bool → Detokenized χ

/-- `StopChecker.check_stop_strings`: the stop string and the length to truncate to, or `-1`. -/
def checkStopStrings {χ : Type} [DecidableEq χ] (outputText : List χ) (newCharCount : ℕ)
    (stop : List (List χ)) (includeInOutput : Bool) : Option (List χ × ℤ) :=
  if newCharCount = 0 then none else go stop
where
  go : List (List χ) → Option (List χ × ℤ)
    | [] => none
    | stopStr :: rest =>
      -- already searched text is not searched again
      match pyFind outputText stopStr (1 - newCharCount - stopStr.length) with
      | none => go rest
      | some stopIndex =>
        if includeInOutput then
          if stopIndex + stopStr.length ≥ outputText.length then some (stopStr, -1)
          else some (stopStr, stopIndex + stopStr.length)
        else some (stopStr, stopIndex)

structure IncrementalDetokenizer (χ : Type) where
  tokenIds : List ℕ
  outputText : List χ := []
  tokens : List (List χ) := []
  promptLen : ℕ := 0
  stop : List (List χ) := []
  includeStopStrInOutput : Bool := false
  prefixOffset : ℕ := 0
  readOffset : ℕ := 0
  skipSpecialTokens : Bool := true
  spacesBetweenSpecialTokens : Bool := true
  tokenizer : Option (Tokenizer χ) := none
  stopBufferLength : ℤ := 0
  lastOutputTextOffset : ℤ := 0

/-- The sampling parameters the detokenizer reads. -/
structure DetokenizerParams (χ : Type) where
  stop : List (List χ)
  includeStopStrInOutput : Bool
  skipSpecialTokens : Bool
  spacesBetweenSpecialTokens : Bool

namespace IncrementalDetokenizer

variable {χ : Type} [DecidableEq χ]

/-- `from_new_request`, given the tokens of the prompt and their offsets. -/
def fromNewRequest (tokenizer : Option (Tokenizer χ)) (promptTokenIds : List ℕ)
    (params : DetokenizerParams χ) (prompt : List (List χ) × ℕ × ℕ) : IncrementalDetokenizer χ :=
  match tokenizer with
  | none => { tokenIds := [] }
  | some _ =>
    { tokens := prompt.1
      tokenIds := promptTokenIds
      stop := params.stop
      includeStopStrInOutput := params.includeStopStrInOutput
      prefixOffset := prompt.2.1
      readOffset := prompt.2.2
      skipSpecialTokens := params.skipSpecialTokens
      spacesBetweenSpecialTokens := params.spacesBetweenSpecialTokens
      promptLen := promptTokenIds.length
      tokenizer := tokenizer
      stopBufferLength :=
        if params.stop ≠ [] ∧ ¬ params.includeStopStrInOutput then
          ((params.stop.map List.length).foldl max 0 : ℕ) - 1
        else 0 }

/-- One token of the loop in `update`. -/
def decodeToken (tokenizer : Tokenizer χ) (d : IncrementalDetokenizer χ) (newTokenId : ℕ) :
    List χ × IncrementalDetokenizer χ :=
  let tokenIds := d.tokenIds ++ [newTokenId]
  let new := tokenizer tokenIds d.tokens d.prefixOffset d.readOffset d.skipSpecialTokens
    d.spacesBetweenSpecialTokens
  (new.newDecodedTokenText,
    { d with
      tokenIds := tokenIds
      tokens := d.tokens ++ new.newTokens
      prefixOffset := new.prefixOffset
      readOffset := new.readOffset })

/-- The loop in `update`: the text of the new tokens. -/
def decode (tokenizer : Tokenizer χ) : List ℕ → IncrementalDetokenizer χ →
    List χ × IncrementalDetokenizer χ
  | [], d => ([], d)
  | newTokenId :: newTokenIds, d =>
    let (text, d) := d.decodeToken tokenizer newTokenId
    let (rest, d) := decode tokenizer newTokenIds d
    (text ++ rest, d)

/-- The stop string that the new tokens complete, if any. -/
def update (newTokenIds : List ℕ) (stopTerminated : Bool) (d : IncrementalDetokenizer χ) :
    Option (List χ) × IncrementalDetokenizer χ :=
  if newTokenIds = [] then (none, d)
  else
    match d.tokenizer with
    | none => (none, { d with tokenIds := d.tokenIds ++ newTokenIds })
    | some tokenizer =>
      -- the token that stopped the request is not part of its text
      let skipped := if stopTerminated ∧ ¬ d.includeStopStrInOutput then 1 else 0
      let decodedIds := newTokenIds.take (newTokenIds.length - skipped)
      let (decodedText, d) := decode tokenizer decodedIds d
      let d := { d with outputText := d.outputText ++ decodedText }
      if stopTerminated then
        (none, { d with
          tokenIds := d.tokenIds ++ newTokenIds.drop (newTokenIds.length - skipped) })
      else
        match checkStopStrings d.outputText decodedText.length d.stop d.includeStopStrInOutput with
        | none => (none, d)
        | some (stopString, truncateTo) =>
          if truncateTo ≠ -1 then
            (some stopString,
              { d with outputText := pySliceInt d.outputText 0 truncateTo })
          else (some stopString, d)

def getNextOutputText (finished delta : Bool) (d : IncrementalDetokenizer χ) :
    List χ × IncrementalDetokenizer χ :=
  let bufferLength := if finished then 0 else d.stopBufferLength
  if ¬ delta then
    (if bufferLength ≠ 0 then pySliceInt d.outputText 0 (-bufferLength) else d.outputText, d)
  else
    let length : ℤ := d.outputText.length - bufferLength
    let lastOffset := d.lastOutputTextOffset
    if lastOffset < length then
      (pySliceInt d.outputText lastOffset length, { d with lastOutputTextOffset := length })
    else ([], d)

end IncrementalDetokenizer

end Spexis

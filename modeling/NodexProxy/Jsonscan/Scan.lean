import NodexProxy.Foundation.Bytes
import NodexProxy.Foundation.Checked

/-! Package `jsonscan`: value boundaries in JSON text, without decoding or validating it.
Positions are indices into the whole text and every access is checked. The loops advance in
each turn, so the length of the text, and one turn more, is fuel enough. -/

namespace NodexProxy.Jsonscan

open NodexProxy.Foundation

def isSpace (byte : UInt8) : Bool := byte == 32 || byte == 9 || byte == 10 || byte == 13

/-- The loop that advances over the bytes it keeps. -/
def skipWhile (keep : UInt8 → Bool) (text : Bytes) : Nat → Nat → Checked Nat
  | 0, _ => .error .diverges
  | fuel + 1, index =>
    if index < text.length then do
      let byte ← read text index
      if keep byte then skipWhile keep text fuel (index + 1) else return index
    else return index

/-- The first index from `index` on whose byte is not white space. -/
def skipSpace (text : Bytes) (index : Nat) : Checked Nat :=
  skipWhile isSpace text (text.length + 1) index

/-- How many backslashes stand right before `quote`, not counting `start` and what is before. -/
def backslashesBefore (text : Bytes) (start : Nat) : Nat → Checked Nat
  | 0 => return 0
  | position + 1 =>
    if start < position then do
      let byte ← read text position
      if byte = 92 then
        let before ← backslashesBefore text start position
        return before + 1
      else return 0
    else return 0

def skipStringLoop (text : Bytes) (start : Nat) : Nat → Nat → Checked (Option Nat)
  | 0, _ => .error .diverges
  | fuel + 1, index =>
    if index < text.length then do
      let rest ← slice text index text.length
      match rest.idxOf? 34 with
      | none => return none
      | some offset =>
        let quote := index + offset
        let backslashes ← backslashesBefore text start quote
        if backslashes % 2 = 0 then return some (quote + 1)
        else skipStringLoop text start fuel (quote + 1)
    else return none

/-- `skipString`: just past the closing quote of the string that starts here. -/
def skipString (text : Bytes) (index : Nat) : Checked (Option Nat) :=
  if text.length ≤ index then return none
  else do
    let byte ← read text index
    if byte ≠ 34 then return none
    else skipStringLoop text index (text.length + 1) (index + 1)

/-- `SkipString`, which also tells whether there is a backslash inside. -/
def skipStringEscaped (text : Bytes) (index : Nat) : Checked (Option (Nat × Bool)) := do
  match ← skipString text index with
  | none => return none
  | some stop =>
    let inner ← slice text (index + 1) (stop - 1)
    return some (stop, inner.contains 92)

/-- The loop over an object or array, which only counts brackets outside strings. -/
def skipNestedLoop (text : Bytes) : Nat → Int → Nat → Checked (Option Nat)
  | 0, _, _ => .error .diverges
  | fuel + 1, depth, index =>
    if index < text.length then do
      let byte ← read text index
      if byte = 34 then
        match ← skipString text index with
        | none => return none
        | some stop => skipNestedLoop text fuel depth stop
      else if byte = 123 ∨ byte = 91 then skipNestedLoop text fuel (depth + 1) (index + 1)
      else if byte = 125 ∨ byte = 93 then
        if depth - 1 = 0 then return some (index + 1)
        else skipNestedLoop text fuel (depth - 1) (index + 1)
      else skipNestedLoop text fuel depth (index + 1)
    else return none

def isDelimiter (byte : UInt8) : Bool :=
  byte == 44 || byte == 125 || byte == 93 || byte == 58 || isSpace byte

/-- Just past the value that starts here. -/
def skipValue (text : Bytes) (index : Nat) : Checked (Option Nat) :=
  if text.length ≤ index then return none
  else do
    let byte ← read text index
    if byte = 34 then skipString text index
    else if byte = 123 ∨ byte = 91 then skipNestedLoop text (text.length + 1) 0 index
    else
      let stop ← skipWhile (fun byte => !isDelimiter byte) text (text.length + 1) index
      return if stop = index then none else some stop

section Walk

variable {State : Type}

/-- Members in order, each with its key, whether the key has a backslash, and the bounds of
its value. The visitor's flag is whether to go on. -/
def scanObjectLoop (text : Bytes) (visit : State → Bytes → Bool → Nat → Nat → Checked (State × Bool)) :
    Nat → State → Nat → Checked (Option Nat × State)
  | 0, _, _ => .error .diverges
  | fuel + 1, state, index => do
    match ← skipStringEscaped text index with
    | none => return (none, state)
    | some (keyStop, escaped) =>
      let key ← slice text (index + 1) (keyStop - 1)
      let colon ← skipSpace text keyStop
      if text.length ≤ colon then return (none, state)
      else
        let byte ← read text colon
        if byte ≠ 58 then return (none, state)
        else
          let start ← skipSpace text (colon + 1)
          match ← skipValue text start with
          | none => return (none, state)
          | some stop =>
            let (state, goOn) ← visit state key escaped start stop
            if !goOn then return (some stop, state)
            else
              let index ← skipSpace text stop
              if text.length ≤ index then return (none, state)
              else
                let byte ← read text index
                if byte = 44 then
                  let index ← skipSpace text (index + 1)
                  scanObjectLoop text visit fuel state index
                else if byte = 125 then return (some (index + 1), state)
                else return (none, state)

def scanObject (text : Bytes) (index : Nat)
    (visit : State → Bytes → Bool → Nat → Nat → Checked (State × Bool)) (state : State) :
    Checked (Option Nat × State) :=
  if text.length ≤ index then return (none, state)
  else do
    let byte ← read text index
    if byte ≠ 123 then return (none, state)
    else
      let index ← skipSpace text (index + 1)
      if index < text.length then
        let byte ← read text index
        if byte = 125 then return (some (index + 1), state)
        else scanObjectLoop text visit (text.length + 1) state index
      else scanObjectLoop text visit (text.length + 1) state index

/-- Elements in order, each with its index and bounds. -/
def scanArrayLoop (text : Bytes) (visit : State → Nat → Nat → Nat → Checked (State × Bool)) :
    Nat → State → Nat → Nat → Checked (Option Nat × State)
  | 0, _, _, _ => .error .diverges
  | fuel + 1, state, position, start => do
    match ← skipValue text start with
    | none => return (none, state)
    | some stop =>
      let (state, goOn) ← visit state position start stop
      if !goOn then return (some stop, state)
      else
        let index ← skipSpace text stop
        if text.length ≤ index then return (none, state)
        else
          let byte ← read text index
          if byte = 44 then
            let index ← skipSpace text (index + 1)
            scanArrayLoop text visit fuel state (position + 1) index
          else if byte = 93 then return (some (index + 1), state)
          else return (none, state)

def scanArray (text : Bytes) (index : Nat)
    (visit : State → Nat → Nat → Nat → Checked (State × Bool)) (state : State) :
    Checked (Option Nat × State) :=
  if text.length ≤ index then return (none, state)
  else do
    let byte ← read text index
    if byte ≠ 91 then return (none, state)
    else
      let index ← skipSpace text (index + 1)
      if index < text.length then
        let byte ← read text index
        if byte = 93 then return (some (index + 1), state)
        else scanArrayLoop text visit (text.length + 1) state 0 index
      else scanArrayLoop text visit (text.length + 1) state 0 index

end Walk

def isPlainASCII (text : Bytes) : Bool := text.all fun byte => 32 ≤ byte && byte < 127

end NodexProxy.Jsonscan

import ReviewRota.Text.Hex

/-!
# TOML texts

Readers start behind the opening quotes and answer the text and what follows its closing quotes.
-/

namespace ReviewRota.Toml

def quote : Char := '\x22'
def apostrophe : Char := '\x27'
def backslash : Char := '\x5c'

def isBlank (c : Char) : Bool := c = ' ' || c = '\t'

def isPlain (c : Char) : Bool := c = '\t' || (0x20 ≤ c.toNat && c.toNat ≠ 0x7f)

def escaped? (c : Char) : Option Char :=
  if c = quote || c = backslash then some c
  else if c = 'b' then some '\x08'
  else if c = 'e' then some '\x1b'
  else if c = 'f' then some '\x0c'
  else if c = 'n' then some '\n'
  else if c = 'r' then some '\r'
  else if c = 't' then some '\t'
  else none

def codeLength? (c : Char) : Option Nat :=
  if c = 'x' then some 2
  else if c = 'u' then some 4
  else if c = 'U' then some 8
  else none

def hexDigit? (c : Char) : Option Nat :=
  if c.toNat < 0x80 then Text.hexValue? c.toNat.toUInt8 else none

def charOf? (code : Nat) : Option Char :=
  if code.isValidChar then some (Char.ofNat code) else none

inductive Pending where
  | nothing
  | escape
  | code (left value : Nat)
  | fold (ended : Bool)
  deriving DecidableEq, Repr

/-- Two further quotes behind the closing ones belong to the text. -/
def closingQuotes (q : Char) : List Char → List Char × List Char
  | a :: b :: rest =>
      if a = q ∧ b = q then ([q, q], rest)
      else if a = q then ([q], b :: rest)
      else ([], a :: b :: rest)
  | [a] => if a = q then ([q], []) else ([], [a])
  | [] => ([], [])

def afterTwo? (q : Char) : List Char → Option (List Char)
  | a :: b :: rest => if a = q ∧ b = q then some rest else none
  | _ => none

/-- Reads a text in which a backslash escapes; `lines` says whether it may go over several. -/
def basic? (lines : Bool) (read : List Char) (pending : Pending) :
    List Char → Option (List Char × List Char)
  | [] => none
  | c :: rest =>
      let ordinary (_ : Unit) : Option (List Char × List Char) :=
        if c = quote then
          if lines then
            match afterTwo? quote rest with
            | some after =>
                let (more, after) := closingQuotes quote after
                some (read.reverse ++ more, after)
            | none => basic? lines (c :: read) .nothing rest
          else some (read.reverse, rest)
        else if c = backslash then basic? lines read .escape rest
        else if isPlain c || (lines && c = '\n') then basic? lines (c :: read) .nothing rest
        else if lines && c = '\r' then
          match rest with
          | '\n' :: rest => basic? lines ('\n' :: '\r' :: read) .nothing rest
          | _ => none
        else none
      let folding (ended : Bool) : Option (List Char × List Char) :=
        if isBlank c then basic? lines read (.fold ended) rest
        else if c = '\n' then basic? lines read (.fold true) rest
        else if c = '\r' then
          match rest with
          | '\n' :: rest => basic? lines read (.fold true) rest
          | _ => none
        else if ended then ordinary ()
        else none
      match pending with
      | .nothing => ordinary ()
      | .escape =>
          match escaped? c, codeLength? c with
          | some d, _ => basic? lines (d :: read) .nothing rest
          | none, some n => basic? lines read (.code n 0) rest
          | none, none => if lines then folding false else none
      | .code left value =>
          match hexDigit? c with
          | none => none
          | some d =>
              if left = 1 then
                match charOf? (value * 16 + d) with
                | some c => basic? lines (c :: read) .nothing rest
                | none => none
              else basic? lines read (.code (left - 1) (value * 16 + d)) rest
      | .fold ended => folding ended

def literal? (lines : Bool) (read : List Char) : List Char → Option (List Char × List Char)
  | [] => none
  | c :: rest =>
      if c = apostrophe then
        if lines then
          match afterTwo? apostrophe rest with
          | some after =>
              let (more, after) := closingQuotes apostrophe after
              some (read.reverse ++ more, after)
          | none => literal? lines (c :: read) rest
        else some (read.reverse, rest)
      else if isPlain c || (lines && c = '\n') then literal? lines (c :: read) rest
      else if lines && c = '\r' then
        match rest with
        | '\n' :: rest => literal? lines ('\n' :: '\r' :: read) rest
        | _ => none
      else none

/-- A line end right behind the opening quotes is no part of the text. -/
def skipLineEnd : List Char → List Char
  | '\n' :: rest => rest
  | '\r' :: '\n' :: rest => rest
  | cs => cs

end ReviewRota.Toml

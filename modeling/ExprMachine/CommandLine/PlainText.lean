/-! A message quotes arguments as plain text: the control functions in them,
which would steer a terminal, are left out. -/

namespace ExprMachine.CommandLine

inductive DeviceHead where
  | entry
  | parameters
  | intermediates
deriving DecidableEq

/-- A control function that has begun, and how far it has got. -/
inductive ControlFunction where
  | escape
  | escapeIntermediates
  | controlSequence
  | systemCommand
  | device (head : DeviceHead)
  /-- The body of a control string, up to its terminator. -/
  | controlString
deriving DecidableEq

/-- The terminator of a control string is a byte, also where that byte is a part of
a longer character. -/
def hasTerminator (character : Char) : Bool :=
  (String.utf8EncodeChar character).contains 0x9c

/-- A head in which parameters come where none may be is as good as its body. -/
def DeviceHead.next (head : DeviceHead) (character : Char) : ControlFunction :=
  if character < ' ' || '~' < character then .device head
  else if character < '0' then .device .intermediates
  else if '@' ≤ character then .controlString
  else match head with
    | .entry => .device .parameters
    | .parameters => if character < '<' then .device .parameters else .controlString
    | .intermediates => .controlString

namespace ControlFunction

/-- What a character makes of a control function: nothing is left of one that it ends. -/
def next (function : ControlFunction) (character : Char) : Option ControlFunction :=
  match function with
  | .escape =>
      match character with
      | '[' => some .controlSequence
      | ']' => some .systemCommand
      | 'P' => some (.device .entry)
      | 'X' | '^' | '_' => some .controlString
      | _ =>
          if character < ' ' || '~' < character then some .escape
          else if character < '0' then some .escapeIntermediates
          else none
  | .escapeIntermediates =>
      if character < '0' || '~' < character then some .escapeIntermediates else none
  | .controlSequence =>
      if character < '@' || '~' < character then some .controlSequence else none
  | .systemCommand => if character = '\x07' then none else some .systemCommand
  | .device head => some (head.next character)
  | .controlString => if hasTerminator character then none else some .controlString

def admitsBlanks : ControlFunction → Bool
  | .escape | .escapeIntermediates | .controlSequence => true
  | .systemCommand | .device _ | .controlString => false

end ControlFunction

def isBlank (character : Char) : Bool :=
  character = '\t' || character = '\n' || character = '\x0c' || character = '\r'

def isPlain (character : Char) : Bool :=
  isBlank character || (' ' ≤ character && character != '\x7f')

inductive Position where
  /-- In plain text, which may have interrupted a control function. -/
  | text (interrupted : Option ControlFunction)
  | inside (function : ControlFunction)
deriving DecidableEq

namespace Position

def start : Position := .text none

def resume : Option ControlFunction → Position
  | none => start
  | some function => .inside function

/-- The position after a character, and whether the character is text. Escape begins
a control function anywhere, and cancel and substitute end any. An interrupted one goes
on at the next control character, unless a character beyond ASCII has come before. -/
def step (position : Position) (character : Char) : Position × Bool :=
  if character = '\x1b' then (.inside .escape, false)
  else if character = '\x18' || character = '\x1a' then (start, false)
  else match position with
    | .text interrupted =>
        if isPlain character then
          (.text (if character ≤ '~' then interrupted else none), true)
        else
          (resume interrupted, false)
    | .inside function =>
        if function.admitsBlanks && isBlank character then
          (.text (some function), true)
        else
          (resume (function.next character), false)

def textOf (position : Position) : List Char → List Char
  | [] => []
  | character :: rest =>
      match position.step character with
      | (next, true) => character :: next.textOf rest
      | (next, false) => next.textOf rest

end Position

def plainText (text : String) : String :=
  String.ofList (Position.start.textOf text.toList)

end ExprMachine.CommandLine

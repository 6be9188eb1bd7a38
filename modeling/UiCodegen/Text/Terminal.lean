import UiCodegen.Text.Cluster

/-!
# Texts on a terminal

A terminal takes some octets of a text for orders and shows the rest.  An order begins with the
escape character, or with an octet above 0x7F that stands for such a sequence, and has a grammar of
its own; `State` is how far the terminal is in it.  `columns` is the width of what is shown.
-/

namespace UiCodegen.Terminal

/-- Where a terminal is in its input. -/
inductive State where
  /-- Outside of every order. -/
  | ground
  | escape
  /-- Behind an escape character and a sign that does not end the order yet. -/
  | escapeMiddle
  /-- In a control sequence, which begins with `[`. -/
  | control
  /-- In a control sequence whose numbers are over. -/
  | controlMiddle
  /-- In a command to the system that runs the terminal, which begins with `]`. -/
  | command
  /-- In a message, which begins with `X`, `^` or `_`. -/
  | message
  /-- At the start of an order to the device, which begins with `P`. -/
  | device
  | deviceNumbers
  /-- In an order to the device whose numbers are over. -/
  | deviceMiddle
  | deviceText
  deriving DecidableEq, Repr

namespace State

def takesAll : State → Bool
  | command | deviceText => true
  | _ => false

/-- The state that an octet above 0x7F leads to where it does not belong to an order. -/
def ofHigh (b : UInt8) : State :=
  if b == 0x90 then device
  else if b == 0x98 || b == 0x9e || b == 0x9f then message
  else if b == 0x9b then control
  else if b == 0x9d then command
  else ground

/-- Behind the escape character, the state that the sign of an order leads to. -/
def ofSign (b : UInt8) : State :=
  if b < 0x30 then escapeMiddle
  else if b == 0x50 then device
  else if b == 0x58 || b == 0x5e || b == 0x5f then message
  else if b == 0x5b then control
  else if b == 0x5d then command
  else ground

/-- The state behind an octet below 0x80 that neither begins nor breaks off an order. -/
def step (state : State) (b : UInt8) : State :=
  let isControl := b < 0x20 || b == 0x7f
  match state with
  | ground => ground
  | escape => if isControl then escape else ofSign b
  | escapeMiddle => if isControl || b < 0x30 then escapeMiddle else ground
  | control =>
    if isControl then control else if b < 0x30 then controlMiddle else if b < 0x40 then control
      else ground
  | controlMiddle => if isControl || b < 0x30 then controlMiddle else ground
  | command => if b == 0x07 then ground else command
  | message => message
  | device =>
    if 0x08 ≤ b && b ≤ 0x0d then deviceText
    else if isControl then device
    else if b < 0x30 then deviceMiddle
    else if b < 0x40 then deviceNumbers
    else deviceText
  | deviceNumbers =>
    if isControl then deviceNumbers
    else if b < 0x30 then deviceMiddle
    else if b < 0x40 then deviceNumbers
    else deviceText
  | deviceMiddle => if isControl || b < 0x30 then deviceMiddle else deviceText
  | deviceText => deviceText

/-- The state behind an octet.  The octets 0x18 and 0x1A break every order off, and 0x9C ends those
that take all other octets above 0x7F. -/
def next (state : State) (b : UInt8) : State :=
  if 0x80 ≤ b then
    if state.takesAll then if b == 0x9c then ground else state
    else ofHigh b
  else if b == 0x18 || b == 0x1a then ground
  else if b == 0x1b then if state == device then deviceText else escape
  else state.step b

def shows (state : State) (b : UInt8) : Bool := state == ground && 0x20 ≤ b && b ≤ 0x7e

/-- Whether an octet begins a cluster, which is shown also where it breaks an order off. -/
def beginsCluster (state : State) (b : UInt8) : Bool := !state.takesAll && 0xc2 ≤ b && b ≤ 0xf4

end State

/-- The columns of a text behind `skip` octets of it, in addition to `sofar`. -/
def columnsFrom (state : State) (sofar : Nat) : (skip : Nat) → Bytes → Nat
  | _, [] => sofar
  | skip + 1, _ :: rest => columnsFrom state sofar skip rest
  | 0, b :: rest =>
    if state.beginsCluster b then
      let cluster := Cluster.first (b :: rest)
      columnsFrom .ground (sofar + cluster.columns) (cluster.octets - 1) rest
    else columnsFrom (state.next b) (if state.shows b then sofar + 1 else sofar) 0 rest

def columns (s : Bytes) : Nat := columnsFrom .ground 0 0 s

end UiCodegen.Terminal

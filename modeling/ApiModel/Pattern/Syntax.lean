import ApiModel.Pattern.Property

/-! # Pattern syntax

The tree of a regular expression, how deep it nests, and how large the automaton for it grows.
-/

namespace ApiModel.Pattern

inductive Flag where
  | ignoreCase | multiLine | dotMatchesNewLine | swapGreed | unicode | crlf | freeSpacing
  deriving DecidableEq, Repr

/-- Flags with the side of the minus sign they stand on. -/
abbrev FlagSettings := List (Flag × Bool)

def FlagSettings.state? (settings : FlagSettings) (flag : Flag) : Option Bool :=
  (settings.find? (·.1 == flag)).map Prod.snd

/-- A character as written; `byte` marks the form of a two-digit escape. -/
structure Literal where
  char : Char
  byte : Bool
  deriving DecidableEq, Repr

inductive PerlClass where
  | digit | space | word
  deriving DecidableEq, Repr

inductive ClassItem where
  | literal (value : Literal)
  | range (first last : Literal)
  | ascii (negated : Bool)
  | perl (kind : PerlClass) (negated : Bool)
  | property (query : Property)
  deriving DecidableEq, Repr

inductive ClassSet where
  | item (value : ClassItem)
  | union (sets : List ClassSet)
  | bracketed (negated : Bool) (set : ClassSet)
  | operation (left right : ClassSet)

inductive Expr where
  | empty
  | literal (value : Literal)
  | dot
  | assertion
  | perl (kind : PerlClass) (negated : Bool)
  | property (query : Property)
  | bracketed (negated : Bool) (set : ClassSet)
  | flags (settings : FlagSettings)
  | group (settings : FlagSettings) (body : Expr)
  | concat (parts : List Expr)
  | alternation (branches : List Expr)
  /-- At least `least` times, and at most `most` times if there is a bound. -/
  | repetition (least : Nat) (most : Option Nat) (body : Expr)

namespace ClassSet

mutual

def depth : ClassSet → Nat
  | .item _ => 0
  | .union sets => depths sets + 1
  | .bracketed _ set => depth set + 1
  | .operation left right => max (depth left) (depth right) + 1

def depths : List ClassSet → Nat
  | [] => 0
  | set :: rest => max (depth set) (depths rest)

end

end ClassSet

namespace Expr

mutual

def depth : Expr → Nat
  | .bracketed _ set => set.depth + 1
  | .group _ body => depth body + 1
  | .concat parts => depths parts + 1
  | .alternation branches => depths branches + 1
  | .repetition _ _ body => depth body + 1
  | _ => 0

def depths : List Expr → Nat
  | [] => 0
  | e :: rest => max (depth e) (depths rest)

end

end Expr

/-- Bytes for one state of the automaton. -/
def stateSize : Nat := 32

def PerlClass.size : PerlClass → Nat
  | .digit => 6000
  | .space => 700
  | .word => 46000

/-- Most properties hold of many ranges of characters. -/
def Property.size : Property → Nat
  | named name => if normalised name = "ascii" then stateSize else 20000
  | valued _ value => if normalised value = "ascii" then stateSize else 20000

namespace ClassItem

def size : ClassItem → Nat
  | literal value => if value.char.toNat < 128 then 8 else 3 * stateSize
  | range _ last => if last.char.toNat < 128 then 8 else 8 * stateSize
  | ascii _ => 16
  | perl kind _ => kind.size
  | property query => query.size

end ClassItem

namespace ClassSet

mutual

def size : ClassSet → Nat
  | .item i => i.size
  | .union sets => sizes sets
  | .bracketed negated set => size set + (if negated then 10 * stateSize else 0)
  | .operation left right => size left + size right

def sizes : List ClassSet → Nat
  | [] => 0
  | set :: rest => size set + sizes rest

end

end ClassSet

/-- Copies of a body of some size: the required ones, and the optional ones with a choice each. -/
def repeatedSize (least : Nat) (most : Option Nat) (body : Nat) : Nat :=
  match most with
  | none => max least 1 * body + stateSize
  | some most => least * body + (most - least) * (body + stateSize)

namespace Expr

mutual

def isZeroWidth : Expr → Bool
  | .empty | .flags _ | .assertion => true
  | .group _ body => isZeroWidth body
  | .concat parts => areZeroWidth parts
  | .alternation branches => areZeroWidth branches
  | .repetition _ most body => most = some 0 || isZeroWidth body
  | _ => false

def areZeroWidth : List Expr → Bool
  | [] => true
  | e :: rest => isZeroWidth e && areZeroWidth rest

end

mutual

/-- About how many bytes the automaton of an expression takes. -/
def size : Expr → Nat
  | .empty | .flags _ => 0
  | .literal value => value.char.utf8Size * stateSize
  | .dot => 10 * stateSize
  | .assertion => stateSize
  | .perl kind _ => kind.size
  | .property query => query.size
  | .bracketed negated set => stateSize + (ClassSet.bracketed negated set).size
  | .group _ body => size body + 2 * stateSize
  | .concat parts => sizes parts
  | .alternation branches => sizes branches + stateSize
  | .repetition least most body =>
    -- An expression that takes up no characters is tried once.
    if isZeroWidth body then repeatedSize (min least 1) (most.map (min 1)) (size body)
    else repeatedSize least most (size body)

def sizes : List Expr → Nat
  | [] => 0
  | e :: rest => size e + sizes rest

end

end Expr

end ApiModel.Pattern

import ApiModel.Pattern.Reader

/-! # Valid patterns

A pattern is valid when it is well formed, nests at most 250 deep, asks for known properties, can
only match whole characters, and has an automaton of at most 10 MiB.
-/

namespace ApiModel.Pattern

namespace ClassItem

/-- Whether an item makes sense with the Unicode flag on or off. Without it a class holds ASCII
characters only. -/
def fits (unicode : Bool) : ClassItem → Bool
  | literal value => unicode || value.char.toNat < 128
  | range first last => unicode || (first.char.toNat < 128 && last.char.toNat < 128)
  | ascii negated => unicode || !negated
  | perl _ negated => unicode || !negated
  | property query => unicode && query.isKnown

end ClassItem

namespace ClassSet

mutual

def fits (unicode : Bool) : ClassSet → Bool
  | .item i => i.fits unicode
  | .union sets => allFit unicode sets
  | .bracketed negated set => (unicode || !negated) && fits unicode set
  | .operation left right => fits unicode left && fits unicode right

def allFit (unicode : Bool) : List ClassSet → Bool
  | [] => true
  | set :: rest => fits unicode set && allFit unicode rest

end

end ClassSet

namespace Expr

mutual

/-- Whether every part makes sense under the flags in force, which parts may change for what
follows them. The answer is the Unicode flag afterwards. -/
def fits? (unicode : Bool) : Expr → Option Bool
  | .literal value =>
    if unicode || !value.byte || value.char.toNat < 128 then some unicode else none
  | .dot => if unicode then some unicode else none
  | .perl _ negated => if unicode || !negated then some unicode else none
  | .property query => if unicode && query.isKnown then some unicode else none
  | .bracketed negated set =>
    if (ClassSet.bracketed negated set).fits unicode then some unicode else none
  | .flags settings => some ((settings.state? .unicode).getD unicode)
  | .group settings body =>
    (fits? ((settings.state? .unicode).getD unicode) body).map fun _ => unicode
  | .concat parts => allFit? unicode parts
  | .alternation branches => allFit? unicode branches
  | .repetition _ _ body => fits? unicode body
  | .empty | .assertion => some unicode

def allFit? (unicode : Bool) : List Expr → Option Bool
  | [] => some unicode
  | e :: rest => (fits? unicode e).bind fun unicode => allFit? unicode rest

end

end Expr

def depthLimit : Nat := 250

def sizeLimit : Nat := 10 * 1024 * 1024

def isValid (pattern : String) : Bool :=
  match read? pattern with
  | none => false
  | some e => e.depth ≤ depthLimit && (e.fits? true).isSome && e.size ≤ sizeLimit

end ApiModel.Pattern

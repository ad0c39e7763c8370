import Mathlib.Data.List.Basic

/-!
# `getopt`

Options of one letter.  An argument `-abc` is a cluster of letters; a letter that
takes an argument has the rest of the cluster, or the next element of the vector.
`--` ends the options.  What is not an option is an operand: GNU `getopt` goes on
looking for options behind it (`permute`), POSIX `getopt` stops there.

`getopt` here is all the calls of a loop `while ((opt = getopt(…)) != -1)`, with
what remains from `optind` on.  When an option is repeated, most programs take the
last one, `lastArg`.
-/

namespace Getopt

/-- What one call returns: an option, an option with its `optarg`, or `'?'`. -/
inductive Opt where
  | flag (letter : Char)
  | arg (letter : Char) (optarg : List Char)
  | bad
  deriving DecidableEq, Repr

/-- Whether a letter is an option, and takes an argument. -/
def takesArgument (letter : Char) : List Char → Option Bool
  | [] => none
  | c :: optstring =>
      if letter = ':' ∨ letter = ';' then none
      else if c = letter then some (optstring.head? = some ':')
      else takesArgument letter optstring

/-- A cluster, `next` being the element behind it, and whether it used that one. -/
def cluster (optstring : List Char) (next : Option (List Char)) : List Char → List Opt × Bool
  | [] => ([], false)
  | letter :: letters =>
      match takesArgument letter optstring with
      | none =>
          let (opts, used) := cluster optstring next letters
          (.bad :: opts, used)
      | some false =>
          let (opts, used) := cluster optstring next letters
          (.flag letter :: opts, used)
      | some true =>
          if letters ≠ [] then ([.arg letter letters], false)
          else
            match next with
            | none => ([.bad], false)
            | some optarg => ([.arg letter optarg], true)

/-- The options of an argument vector, and the operands. -/
def getopt (permute : Bool) (optstring : List Char) :
    List (List Char) → List Opt × List (List Char)
  | [] => ([], [])
  | ['-', '-'] :: args => ([], args)
  | ('-' :: letter :: letters) :: args =>
      match cluster optstring args.head? (letter :: letters), args with
      | (opts, true), _ :: args =>
          let (more, operands) := getopt permute optstring args
          (opts ++ more, operands)
      | (opts, _), args =>
          let (more, operands) := getopt permute optstring args
          (opts ++ more, operands)
  | operand :: args =>
      if permute then
        let (opts, operands) := getopt permute optstring args
        (opts, operand :: operands)
      else ([], operand :: args)

/-! ## The last of several -/

/-- The argument, if the option has this letter. -/
def Opt.argOf (letter : Char) : Opt → Option (List Char)
  | .arg l optarg => if l = letter then some optarg else none
  | _ => none

/-- The argument of the last option with this letter. -/
def lastArg (letter : Char) (opts : List Opt) : Option (List Char) :=
  (opts.filterMap (Opt.argOf letter)).getLast?

/-- One option more: it counts if it has the letter. -/
@[simp] theorem lastArg_concat (letter : Char) (opts : List Opt) (opt : Opt) :
    lastArg letter (opts ++ [opt]) = (opt.argOf letter).or (lastArg letter opts) := by
  rw [lastArg, List.filterMap_append]
  cases h : opt.argOf letter with
  | none => simp [h, lastArg]
  | some optarg => simp [h]

end Getopt

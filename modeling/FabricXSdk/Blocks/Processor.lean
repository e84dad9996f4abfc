import FabricXSdk.Blocks.Parser

/-!
# The block processor

`ProcessBlock` parses a block and runs the handlers in order, up to the first one
that fails.

## Implementation notes

A handler is a function of the block and of whatever the handlers work on. What the
outside world makes of a call is fixed when the handler is built.
-/

namespace FabricXSdk.Blocks

open Golang

abbrev Handler (σ : Type) := Block → σ → Except Text Unit × σ

variable {σ : Type}

/-- The loop over the handlers. -/
def runHandlers : List (Handler σ) → Handler σ
  | [], _, s => (.ok (), s)
  | h :: rest, b, s =>
      match h b s with
      | (.ok (), s') => runHandlers rest b s'
      | (.error err, s') => (.error (.lit "handle: " :: err), s')

def processBlock (parse : Proto.Block → Outcome Block) (handlers : List (Handler σ))
    (block : Proto.Block) (s : σ) : Outcome Unit × σ :=
  match parse block with
  | .panic => (.panic, s)
  | .error err => (.error (.lit "parse: " :: err), s)
  | .ok b =>
      let (result, s') := runHandlers handlers b s
      (Outcome.lift result, s')

end FabricXSdk.Blocks

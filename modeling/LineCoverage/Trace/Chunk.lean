/-!
# `LineCoverage.Trace.Chunk`: a text in chunks

A long trace is taken in chunks of so many characters, and a chunk may end
anywhere, inside a line or inside a record.

`flatten_chunksOfSize` says that the chunks put together are the text.
-/

set_option autoImplicit false

namespace LineCoverage

/-- The characters of a chunk, unless something else is asked for. -/
def chunkSize : Nat := 65536

/-- The chunks of `size + 1` characters of a text, before `done`, last one first. -/
def chunksOnto (size : Nat) (done : List (List Char)) : List Char → List (List Char)
  | [] => done.reverse
  | c :: rest => chunksOnto size ((c :: rest.take size) :: done) (rest.drop size)
termination_by text => text.length
decreasing_by simp only [List.length_drop, List.length_cons]; omega

/-- A text in chunks of `size` characters, the last one shorter. A negative size sets no limit,
and a size of zero takes nothing. No chunk is empty. -/
def chunksOfSize (size : Int) (text : List Char) : List (List Char) :=
  if size < 0 then (if text = [] then [] else [text])
  else match size.toNat with
    | 0 => []
    | size + 1 => chunksOnto size [] text

/-- The chunks of a string. -/
def chunks (size : Int) (text : String) : List String :=
  (chunksOfSize size text.toList).map String.ofList

/-- The chunks before and those to come make up the text before and the text to come. -/
private theorem flatten_chunksOnto (size : Nat) (done : List (List Char)) (text : List Char) :
    (chunksOnto size done text).flatten = done.reverse.flatten ++ text := by
  fun_induction chunksOnto size done text with
  | case1 done => simp
  | case2 done c rest ih =>
      rw [ih, List.reverse_cons, List.flatten_append, List.append_assoc]
      simp [List.take_append_drop]

/-- Every size but zero loses nothing. -/
theorem flatten_chunksOfSize (size : Int) (text : List Char) (h : size ≠ 0) :
    (chunksOfSize size text).flatten = text := by
  unfold chunksOfSize
  split
  · split <;> simp_all
  · split
    · omega
    · simp [flatten_chunksOnto]

end LineCoverage

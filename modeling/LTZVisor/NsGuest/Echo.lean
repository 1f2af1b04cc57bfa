/- LTZVisor/NsGuest/Echo
   kind: property
   digest: What the web request handler reacts to: the chunk it has read, or the rest of its
     buffer. -/

import LTZVisor.Lib.CString
import LTZVisor.Lib.Memory

set_option autoImplicit false
set_option relaxedAutoImplicit false

namespace LTZVisor.NsGuest.Echo

open LTZVisor.Lib.CString LTZVisor.Lib.Memory

def recvBufSize : Nat := 2048

def text (s : String) : List Byte := s.toList.map fun c => BitVec.ofNat 8 c.toNat

def get : List Byte := text "GET"
def post : List Byte := text "POST"
def sensorDataNew : List Byte := text "SensorData=new"
def quit : List Byte := text "quit"

/-- `strstr(recv_buf, needle) != NULL`, with no result when the search leaves the buffer. -/
def strstr (recvBuf needle : List Byte) : Option Bool := search 0#8 needle recvBuf

inductive Action
  | page | sensor | echo | close
  deriving DecidableEq

/-- What an iteration does with the `n` bytes that it has read into the buffer. -/
def handle (n : Nat) (recvBuf : List Byte) : Option Action :=
  (strstr recvBuf get).bind fun isGet =>
    if isGet then some .page
    else
      (strstr recvBuf post).bind fun isPost =>
        if isPost then
          (strstr recvBuf sensorDataNew).map fun isNew => if isNew then .sensor else .close
        else if quit <+: recvBuf then some .close
        else if n = 0 then some .close
        else some .echo

/-- A read that fails, or that puts a chunk at the start of the buffer; a chunk that is echoed may
fail to be written. -/
inductive Input
  | error
  | chunk (bytes : List Byte) (written : Bool)

def received (bytes recvBuf : List Byte) : List Byte := bytes ++ recvBuf.drop bytes.length

/-- What the thread of a connection does, one action for each chunk, until it closes the
connection. -/
def processEchoRequest : List Byte → List Input → Option (List Action)
  | _, [] => some []
  | _, .error :: _ => some [.close]
  | recvBuf, .chunk bytes written :: inputs =>
    (handle bytes.length (received bytes recvBuf)).bind fun action =>
      if action = .echo ∧ written then
        (processEchoRequest (received bytes recvBuf) inputs).map (action :: ·)
      else some [action]

/-- The handler takes one action on a chunk, whatever follows the chunk in the buffer. -/
def ReactsTo (chunk : List Byte) : Prop :=
  ∀ rest rest' : List Byte, chunk.length + rest.length = recvBufSize →
    chunk.length + rest'.length = recvBufSize →
    handle chunk.length (chunk ++ rest) = handle chunk.length (chunk ++ rest') ∧
      handle chunk.length (chunk ++ rest) ≠ none

/-- A chunk that ends a string, or asks for the page. -/
def Decisive (chunk : List Byte) : Prop := 0#8 ∈ chunk ∨ get <:+: chunk

/-- The action on a string that ends in the chunk. -/
def actionOn (n : Nat) (visible : List Byte) : Action :=
  if get <:+: visible then .page
  else if post <:+: visible then if sensorDataNew <:+: visible then .sensor else .close
  else if quit <+: visible then .close
  else if n = 0 then .close
  else .echo

private theorem handle_string (n : Nat) {visible : List Byte} (clean : 0#8 ∉ visible)
    (rest : List Byte) : handle n (visible ++ 0#8 :: rest) = some (actionOn n visible) := by
  have isGet : strstr (visible ++ 0#8 :: rest) get = some (decide (get <:+: visible)) :=
    search_nul (by decide) (by decide) clean rest
  have isPost : strstr (visible ++ 0#8 :: rest) post = some (decide (post <:+: visible)) :=
    search_nul (by decide) (by decide) clean rest
  have isNew : strstr (visible ++ 0#8 :: rest) sensorDataNew =
      some (decide (sensorDataNew <:+: visible)) :=
    search_nul (by decide) (by decide) clean rest
  have quits : quit <+: visible ++ 0#8 :: rest ↔ quit <+: visible :=
    prefix_nul_iff (by decide) visible rest
  unfold handle actionOn
  rw [isGet, isPost, isNew]
  simp only [Option.bind_some, Option.map_some, decide_eq_true_eq, quits]
  split_ifs <;> rfl

private theorem handle_page (n : Nat) {chunk : List Byte} (clean : 0#8 ∉ chunk)
    (asks : get <:+: chunk) (rest : List Byte) : handle n (chunk ++ rest) = some .page := by
  have isGet : strstr (chunk ++ rest) get = some true := search_found (by decide) clean asks rest
  rw [handle, isGet]
  rfl

theorem Decisive.handle {chunk : List Byte} (decisive : Decisive chunk) (n : Nat) :
    ∃ action, ∀ rest, handle n (chunk ++ rest) = some action := by
  by_cases ends : 0#8 ∈ chunk
  · obtain ⟨visible, later, rfl, clean⟩ := List.eq_append_cons_of_mem ends
    refine ⟨actionOn n visible, fun rest => ?_⟩
    rw [List.append_assoc, List.cons_append]
    exact handle_string n clean (later ++ rest)
  · exact ⟨.page, handle_page n ends (decisive.resolve_left ends)⟩

private theorem handle_leaves {chunk : List Byte} (open_ : ¬Decisive chunk) (n m : Nat) :
    handle n (chunk ++ List.replicate m 0x78#8) = none := by
  have ⟨clean, absent⟩ := not_or.mp open_
  have isGet : strstr (chunk ++ List.replicate m 0x78#8) get = none := by
    apply search_leaves
    · intro ends
      rcases List.mem_append.mp ends with first | later
      · exact clean first
      · exact absurd (List.eq_of_mem_replicate later) (by decide)
    · exact fun occurs => absent (infix_append_replicate (by decide) (by decide) m occurs)
  rw [handle, isGet]
  rfl

/-- The handler reacts only to the chunk exactly when the chunk ends a string or asks for the
page. -/
theorem reactsTo_iff (chunk : List Byte) (fits : chunk.length ≤ recvBufSize) :
    ReactsTo chunk ↔ Decisive chunk := by
  constructor
  · intro reacts
    by_contra open_
    have filled : chunk.length + (List.replicate (recvBufSize - chunk.length) 0x78#8).length =
        recvBufSize := by
      rw [List.length_replicate]
      omega
    exact (reacts _ _ filled filled).2 (handle_leaves open_ _ _)
  · intro decisive rest rest' _ _
    obtain ⟨action, same⟩ := decisive.handle chunk.length
    rw [same, same]
    exact ⟨rfl, nofun⟩

theorem reactsTo_iff_get : get.length ≤ recvBufSize ∧ (ReactsTo get ↔ Decisive get) :=
  ⟨by decide, reactsTo_iff get (by decide)⟩

/-- Over a whole connection of such chunks the contents of the buffer do not matter. -/
theorem processEchoRequest_congr {inputs : List Input}
    (decisive : ∀ bytes written, .chunk bytes written ∈ inputs → Decisive bytes)
    (recvBuf recvBuf' : List Byte) :
    processEchoRequest recvBuf inputs = processEchoRequest recvBuf' inputs ∧
      processEchoRequest recvBuf inputs ≠ none := by
  induction inputs generalizing recvBuf recvBuf' with
  | nil => exact ⟨rfl, nofun⟩
  | cons input inputs ih =>
    cases input with
    | error => exact ⟨rfl, nofun⟩
    | chunk bytes written =>
      obtain ⟨action, same⟩ := (decisive bytes written (by simp)).handle bytes.length
      have later := ih (fun bytes written mem => decisive bytes written (by simp [mem]))
        (received bytes recvBuf) (received bytes recvBuf')
      rw [processEchoRequest, processEchoRequest, received, received, same, same]
      simp only [Option.bind_some]
      split_ifs with goesOn
      · refine ⟨congrArg (Option.map (action :: ·)) later.1, ?_⟩
        exact fun none => later.2 (Option.map_eq_none_iff.mp none)
      · exact ⟨rfl, nofun⟩

/-- The same five bytes are echoed, or answered with the page when an earlier request is left
behind them. -/
theorem hello_meets_stale_request : ¬∀ chunk : List Byte, chunk.length ≤ recvBufSize →
    ReactsTo chunk := by
  intro claim
  let quiet : List Byte := 0#8 :: List.replicate 2042 0#8
  let stale : List Byte := get ++ 0#8 :: List.replicate 2039 0#8
  have filled : (text "hello").length + quiet.length = recvBufSize := by
    rw [List.length_cons, List.length_replicate]
    rfl
  have filled' : (text "hello").length + stale.length = recvBufSize := by
    rw [List.length_append, List.length_cons, List.length_replicate]
    rfl
  have same := (claim (text "hello") (by decide) quiet stale filled filled').1
  have first : handle 5 (text "hello" ++ quiet) = some .echo := handle_string 5 (by decide) _
  have second : handle 5 (text "hello" ++ stale) = some .page := by
    rw [← List.append_assoc]
    exact handle_string 5 (by decide) _
  have different := first.symm.trans (same.trans second)
  cases different

end LTZVisor.NsGuest.Echo

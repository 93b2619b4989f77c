import AxiomRT.User.Text

/-!
# Proofs: calls of the shared helpers

The console helpers write to the console and make no other call; a reply is one message on
capability 0.
-/

namespace AxiomRT.User

open Lib

theorem uwritePtr_only {P : Call → Prop} (hP : ∀ bytes, P (.conWrite bytes)) (bytes : List UInt8) :
    (uwritePtr bytes).Only P := by
  fun_induction uwritePtr bytes with
  | case1 => exact .ret ()
  | case2 bytes hne ih =>
    refine ⟨hP _, fun (r : Int) => ?_⟩
    show Prog.Only P (if r ≤ 0 then Prog.ret () else uwritePtr (bytes.drop 256))
    split_ifs
    · exact .ret ()
    · exact ih

theorem uput_only {P : Call → Prop} (hP : ∀ bytes, P (.conWrite bytes)) (s : String) :
    (uput s).Only P := uwritePtr_only hP _

theorem reply_only {P : Call → Prop} {msg : List UInt8} (h : P (.send 0 msg)) :
    (reply msg).Only P := ⟨h, fun _ => .ret ()⟩

/-- The kernel can answer every call. -/
theorem nonempty_answer (c : Call) : Nonempty c.Answer := by
  cases c with
  | recv _ room => exact ⟨.error (-1) (by decide)⟩
  | info _ room _ => exact ⟨.error (-1) (by decide)⟩
  | send => exact ⟨(0 : Int)⟩
  | conWrite => exact ⟨(0 : Int)⟩
  | taskStart => exact ⟨(0 : Int)⟩
  | taskKill => exact ⟨(0 : Int)⟩
  | taskRestart => exact ⟨(0 : Int)⟩
  | shutdown => exact ⟨(0 : Int)⟩

/-- A program whose result is thrown away for `a` ends with `a`. -/
theorem path_then_ret {α β : Type} {p : UserProg α} {a b : β} {tr : Prog.Trace Call Call.Answer}
    (h : Prog.Path (p >>= fun _ => Prog.ret a) tr b) : b = a := by
  obtain ⟨tr₁, tr₂, x, -, -, hret⟩ := Prog.path_bind.mp h
  exact (Prog.path_ret.mp hret).2

end AxiomRT.User

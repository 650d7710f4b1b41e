import KeyWrapping.Wrapper

/-!
# Sessions

A session is a run of calls on one wrapper over one supply of random bytes. Each call gets what
the calls before it have left of the supply, whether they succeeded or not.
-/

namespace KeyWrapping

/-- A call on a wrapper. -/
inductive Call where
  /-- Wrap a payload under a password. -/
  | wrap (password payload : Bytes)
  /-- Open a stored form. -/
  | unwrap (password stored : Bytes)
  /-- Open a wrapped key. -/
  | unwrapKey (password : Bytes) (key : WrappedKey)
  /-- Move a stored form to another password. -/
  | rewrap (oldPassword newPassword stored : Bytes)
  /-- Try a password on a stored form. -/
  | verifyPassword (password stored : Bytes)

/-- What a call gives. -/
inductive Answer where
  /-- A new record. -/
  | wrapped (key : WrappedKey)
  /-- A recovered payload. -/
  | payload (secret : Secret)
  /-- Whether the password was right. -/
  | verdict (right : Bool)

/-- An answer, or the reason for none, with the events and what is left of the supply. -/
structure Reply where
  /-- The answer and the events. -/
  traced : Traced Answer
  /-- The random bytes left. -/
  left : Supply

namespace Wrapper

/-- Answer one call. -/
def answer (wrapper : Wrapper) (call : Call) (supply : Supply) : Reply :=
  match call with
  | .wrap password payload =>
    let (traced, left) := wrapper.wrap password payload supply
    ⟨traced.mapResult (·.map .wrapped), left⟩
  | .unwrap password stored =>
    ⟨(wrapper.unwrap password stored).mapResult (·.map .payload), supply⟩
  | .unwrapKey password key =>
    ⟨(wrapper.unwrapKey password key).mapResult (·.map .payload), supply⟩
  | .rewrap oldPassword newPassword stored =>
    let (traced, left) := wrapper.rewrap oldPassword newPassword stored supply
    ⟨traced.mapResult (·.map .wrapped), left⟩
  | .verifyPassword password stored =>
    ⟨(wrapper.verifyPassword password stored).mapResult (·.map .verdict), supply⟩

/-- Answer calls one after the other. -/
def session (wrapper : Wrapper) : List Call → Supply → List Reply
  | [], _ => []
  | call :: calls, supply =>
    let reply := wrapper.answer call supply
    reply :: wrapper.session calls reply.left

end Wrapper

end KeyWrapping

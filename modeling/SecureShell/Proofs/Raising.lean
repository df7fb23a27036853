import SecureShell.Proofs.Pipeline.Opening

/-! The kinds of error that a computation can fail with. An error may say that a packet
was changed on its way, or that the client has lost track of itself; every other error is
ordinary. What kind of error a sequence of steps can fail with is put together from the
steps. -/
namespace SecureShell

namespace Error

/-- An error that says that the client has lost track of itself: what a step builds on is
not there, or does not fit. -/
inductive Internal : Error → Prop where
  | unexpectedVersion : Internal (.protocol .unexpectedVersion)
  | notNegotiated : Internal (.protocol .notNegotiated)
  | noKeyExchange : Internal (.protocol .noKeyExchange)
  | unknownServerVersion : Internal (.protocol .unknownServerVersion)
  | newKeysBeforeKeyExchange : Internal (.protocol .newKeysBeforeKeyExchange)
  | noSessionId : Internal (.protocol .noSessionId)
  | pkOkWithoutQuery : Internal (.protocol .pkOkWithoutQuery)
  | unexpectedConfirmation : Internal (.protocol .unexpectedConfirmation)
  | armedMidPacket : Internal (.protocol .armedMidPacket)
  | notOnePayload : Internal (.protocol .notOnePayload)
  | keyOrIvLength (cipher : CipherAlgorithm) : Internal (.crypto (.keyOrIvLength cipher))
  | macKeyLength (mac : MacAlgorithm) (got : Nat) : Internal (.crypto (.macKeyLength mac got))
  | unaligned (length block : Nat) : Internal (.crypto (.unaligned length block))
  | modulusTooShort : Internal (.crypto .modulusTooShort)

/-- An error that says that a name was agreed on which stands for no algorithm. -/
inductive Unimplemented : Error → Prop where
  | config (kind : AlgorithmKind) (name : String) :
      Unimplemented (.config (.notImplemented kind name))

/-- An error that says that the server has taken its leave. -/
inductive Departed : Error → Prop where
  | disconnected (code : UInt32) (description : String) : Departed (.disconnected code description)

/-- An error that speaks of what the server has sent, or of what the caller has done. -/
structure Ordinary (error : Error) : Prop where
  untampered : ¬ error.Tampered
  outward : ¬ error.Internal
  implemented : ¬ error.Unimplemented
  present : ¬ error.Departed

theorem ordinary_protocol {fault : ProtocolFault} (outward : ¬ (Error.protocol fault).Internal) :
    Ordinary (.protocol fault) := ⟨not_exists.2 nofun, outward, nofun, nofun⟩

theorem ordinary_crypto {fault : CryptoFault} (outward : ¬ (Error.crypto fault).Internal) :
    Ordinary (.crypto fault) := ⟨not_exists.2 nofun, outward, nofun, nofun⟩

theorem ordinary_hostKey (fault : HostKeyFault) : Ordinary (.hostKey fault) :=
  ⟨not_exists.2 nofun, nofun, nofun, nofun⟩

theorem ordinary_auth (fault : AuthFault) : Ordinary (.auth fault) :=
  ⟨not_exists.2 nofun, nofun, nofun, nofun⟩

theorem ordinary_negotiation (slot : String) (client server : List String) :
    Ordinary (.negotiation slot client server) :=
  ⟨not_exists.2 nofun, nofun, nofun, nofun⟩

theorem ordinary_closed : Ordinary .closed := ⟨not_exists.2 nofun, nofun, nofun, nofun⟩

end Error

variable {α β σ τ : Type} {kind wider : Error → Prop}

/-- From a state, a computation fails with errors of one kind only. -/
def RaisesAt (kind : Error → Prop) (s : σ) (run : EStateM Error σ α) : Prop :=
  ∀ error after, run s = .error error after → kind error

def Raises (kind : Error → Prop) (run : EStateM Error σ α) : Prop := ∀ s, RaisesAt kind s run

/-- A result that, if it is a failure, is one of one kind. -/
def Rejects (kind : Error → Prop) (result : Except Error α) : Prop :=
  ∀ error, result = .error error → kind error

namespace Rejects

theorem ok (a : α) : Rejects kind (.ok a) := nofun

theorem error {error : Error} (allowed : kind error) :
    Rejects kind (.error error : Except Error α) := by
  rintro found ⟨⟩
  exact allowed

theorem mono {result : Except Error α} (rejects : Rejects kind result)
    (wide : ∀ error, kind error → wider error) : Rejects wider result :=
  fun error failed => wide error (rejects error failed)

theorem bind {first : Except Error α} {rest : α → Except Error β} (hFirst : Rejects kind first)
    (hRest : ∀ a, first = .ok a → Rejects kind (rest a)) : Rejects kind (first >>= rest) := by
  cases first with
  | error error =>
    rintro found ⟨⟩
    exact hFirst error rfl
  | ok a => exact hRest a rfl

theorem check {c : Prop} [Decidable c] {error : Error} {rest : PUnit → Except Error α}
    (allowed : kind error) (hRest : Rejects kind (rest ⟨⟩)) :
    Rejects kind (if c then MonadExcept.throw error >>= rest else rest ⟨⟩) := by
  split
  · exact .bind (.error allowed) fun _ _ => hRest
  · exact hRest

end Rejects

namespace RaisesAt

variable {s : σ}

theorem mono {run : EStateM Error σ α} (raises : RaisesAt kind s run)
    (wide : ∀ error, kind error → wider error) : RaisesAt wider s run :=
  fun error after failed => wide error (raises error after failed)

theorem bind {first : EStateM Error σ α} {rest : α → EStateM Error σ β}
    (hFirst : RaisesAt kind s first) (hRest : ∀ a t, first s = .ok a t → RaisesAt kind t (rest a)) :
    RaisesAt kind s (first >>= rest) := by
  intro error after failed
  rcases bind_eq_error_iff.1 failed with failed | ⟨a, t, done, failed⟩
  · exact hFirst error after failed
  · exact hRest a t done error after failed

theorem pure (a : α) : RaisesAt kind s (Pure.pure a : EStateM Error σ α) := nofun

theorem throw {error : Error} (allowed : kind error) :
    RaisesAt kind s (MonadExcept.throw error : EStateM Error σ α) := by
  rintro found after ⟨⟩
  exact allowed

theorem get {rest : σ → EStateM Error σ α} (hRest : RaisesAt kind s (rest s)) :
    RaisesAt kind s (MonadState.get >>= rest) := hRest

theorem set {t : σ} {rest : PUnit → EStateM Error σ α} (hRest : RaisesAt kind t (rest ⟨⟩)) :
    RaisesAt kind s (MonadStateOf.set t >>= rest) := hRest

theorem modify {f : σ → σ} {rest : PUnit → EStateM Error σ α}
    (hRest : RaisesAt kind (f s) (rest ⟨⟩)) : RaisesAt kind s (modify f >>= rest) := hRest

theorem check {c : Prop} [Decidable c] {error : Error} {rest : PUnit → EStateM Error σ α}
    (allowed : kind error) (hRest : RaisesAt kind s (rest ⟨⟩)) :
    RaisesAt kind s (if c then MonadExcept.throw error >>= rest else rest ⟨⟩) := by
  split
  · exact .bind (.throw allowed) fun _ _ impossible => nomatch impossible
  · exact hRest

theorem focus {get : σ → τ} {put : τ → σ → σ} {run : EStateM Error τ α}
    (raises : RaisesAt kind (get s) run) : RaisesAt kind s (focus get put run) := by
  intro error after failed
  obtain ⟨t, failed, -⟩ := focus_eq_error_iff.1 failed
  exact raises error t failed

end RaisesAt

namespace Raises

theorem mono {run : EStateM Error σ α} (raises : Raises kind run)
    (wide : ∀ error, kind error → wider error) : Raises wider run :=
  fun s => (raises s).mono wide

theorem bind {first : EStateM Error σ α} {rest : α → EStateM Error σ β}
    (hFirst : Raises kind first) (hRest : ∀ a, Raises kind (rest a)) : Raises kind (first >>= rest) :=
  fun s => (hFirst s).bind fun a t _ => hRest a t

theorem pure (a : α) : Raises kind (Pure.pure a : EStateM Error σ α) := fun _ => .pure a

theorem throw {error : Error} (allowed : kind error) :
    Raises kind (MonadExcept.throw error : EStateM Error σ α) := fun _ => .throw allowed

theorem get : Raises kind (MonadState.get : EStateM Error σ σ) := fun _ => nofun

theorem set (s : σ) : Raises kind (MonadStateOf.set s : EStateM Error σ PUnit) := fun _ => nofun

theorem ite {c : Prop} [Decidable c] {first second : EStateM Error σ α}
    (hFirst : Raises kind first) (hSecond : Raises kind second) :
    Raises kind (if c then first else second) := by
  split
  · exact hFirst
  · exact hSecond

theorem check {c : Prop} [Decidable c] {error : Error} {rest : PUnit → EStateM Error σ α}
    (allowed : kind error) (hRest : Raises kind (rest ⟨⟩)) :
    Raises kind (if c then MonadExcept.throw error >>= rest else rest ⟨⟩) :=
  fun s => .check allowed (hRest s)

theorem focus {get : σ → τ} {put : τ → σ → σ} {run : EStateM Error τ α} (raises : Raises kind run) :
    Raises kind (focus get put run) := fun s => .focus (raises (get s))

theorem mapM {f : α → EStateM Error σ β} (raises : ∀ a, Raises kind (f a)) (list : List α) :
    Raises kind (list.mapM f) := by
  induction list with
  | nil => exact .pure _
  | cons first rest ih =>
    rw [List.mapM_cons]
    exact .bind (raises first) fun _ => .bind ih fun _ => .pure _

end Raises

end SecureShell

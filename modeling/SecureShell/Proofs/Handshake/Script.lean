import Mathlib.Computability.RegularExpressions
import SecureShell.Proofs.Handshake.Accepting
import SecureShell.Proofs.Messages

/-! What a client may say in the course of a connection, as a regular expression over
kinds of message, and the bytes of a message of each kind. What the expression says of
the order of messages can be computed from it. -/
namespace RegularExpression

variable {α : Type} {expression : RegularExpression α} {word : List α}

def letters : RegularExpression α → List α
  | .char a => [a]
  | .plus p q | .comp p q => letters p ++ letters q
  | .star p => letters p
  | _ => []

/-- Does each letter stand only before letters that may follow it? -/
def ordered (follows : α → α → Bool) : RegularExpression α → Bool
  | .plus p q => ordered follows p && ordered follows q
  | .comp p q =>
    ordered follows p && ordered follows q && p.letters.all fun a => q.letters.all (follows a)
  | .star p => ordered follows p && p.letters.all fun a => p.letters.all (follows a)
  | _ => true

def requires [DecidableEq α] (a : α) : RegularExpression α → Bool
  | .zero => true
  | .char b => a == b
  | .plus p q => requires a p && requires a q
  | .comp p q => requires a p || requires a q
  | .epsilon | .star _ => false

theorem mem_letters (matched : word ∈ expression.matches') :
    ∀ a ∈ word, a ∈ expression.letters := by
  induction expression generalizing word with
  | zero => cases matched
  | epsilon =>
    cases matched
    exact nofun
  | char a =>
    cases matched
    exact fun _ member => member
  | plus p q hp hq =>
    intro a member
    rcases matched with matched | matched
    · exact List.mem_append_left _ (hp matched a member)
    · exact List.mem_append_right _ (hq matched a member)
  | comp p q hp hq =>
    obtain ⟨front, hFront, back, hBack, rfl⟩ := Language.mem_mul.1 matched
    intro a member
    rcases List.mem_append.1 member with member | member
    · exact List.mem_append_left _ (hp hFront a member)
    · exact List.mem_append_right _ (hq hBack a member)
  | star p hp =>
    obtain ⟨words, rfl, each⟩ := Language.mem_kstar.1 matched
    intro a member
    obtain ⟨word, listed, member⟩ := List.mem_flatten.1 member
    exact hp (each word listed) a member

/-- In the words of an ordered expression every letter may follow those before it. -/
theorem pairwise_of_ordered {follows : α → α → Bool} (ordered : expression.ordered follows = true)
    (matched : word ∈ expression.matches') : word.Pairwise (follows · · = true) := by
  induction expression generalizing word with
  | zero => cases matched
  | epsilon =>
    cases matched
    exact .nil
  | char a =>
    cases matched
    exact List.pairwise_singleton _ _
  | plus p q hp hq =>
    obtain ⟨first, second⟩ := Bool.and_eq_true_iff.1 ordered
    rcases matched with matched | matched
    · exact hp first matched
    · exact hq second matched
  | comp p q hp hq =>
    obtain ⟨front, hFront, back, hBack, rfl⟩ := Language.mem_mul.1 matched
    simp only [RegularExpression.ordered, Bool.and_eq_true, List.all_eq_true] at ordered
    obtain ⟨⟨first, second⟩, across⟩ := ordered
    refine List.pairwise_append.2 ⟨hp first hFront, hq second hBack, ?_⟩
    intro a inFront b inBack
    exact across a (mem_letters hFront a inFront) b (mem_letters hBack b inBack)
  | star p hp =>
    obtain ⟨words, rfl, each⟩ := Language.mem_kstar.1 matched
    simp only [RegularExpression.ordered, Bool.and_eq_true, List.all_eq_true] at ordered
    obtain ⟨inside, across⟩ := ordered
    refine List.pairwise_flatten.2 ⟨fun word listed => hp inside (each word listed), ?_⟩
    refine List.pairwise_of_forall_mem_list ?_
    intro first hFirst second hSecond a inFirst b inSecond
    exact across a (mem_letters (each first hFirst) a inFirst) b
      (mem_letters (each second hSecond) b inSecond)

theorem mem_of_requires [DecidableEq α] {a : α}
    (required : expression.requires a = true)
    (matched : word ∈ expression.matches') : a ∈ word := by
  induction expression generalizing word with
  | zero => cases matched
  | epsilon | star => cases required
  | char b =>
    cases matched
    exact List.mem_singleton.2 (eq_of_beq required)
  | plus p q hp hq =>
    obtain ⟨first, second⟩ := Bool.and_eq_true_iff.1 required
    rcases matched with matched | matched
    · exact hp first matched
    · exact hq second matched
  | comp p q hp hq =>
    obtain ⟨front, hFront, back, hBack, rfl⟩ := Language.mem_mul.1 matched
    rcases Bool.or_eq_true_iff.1 required with required | required
    · exact List.mem_append_left _ (hp required hFront)
    · exact List.mem_append_right _ (hq required hBack)

theorem append_mem_star {more : List α} (each : ∀ a ∈ more, [a] ∈ expression.matches')
    (matched : word ∈ (star expression).matches') : more ++ word ∈ (star expression).matches' := by
  obtain ⟨words, rfl, repeated⟩ := Language.mem_kstar.1 matched
  refine Language.mem_kstar.2 ⟨more.map ([·]) ++ words, ?_, ?_⟩
  · rw [List.flatten_append, ← List.flatMap_def, List.flatMap_singleton']
  · intro part member
    rcases List.mem_append.1 member with member | member
    · obtain ⟨a, listed, rfl⟩ := List.mem_map.1 member
      exact each a listed
    · exact repeated part member

end RegularExpression

namespace SecureShell

open RegularExpression (char star matches'_mul matches'_add matches'_char matches'_epsilon
  append_mem_star)

/-- The kinds of message that a client sends. -/
inductive MessageKind where
  | proposal
  | dhInit
  | gexRequest
  | gexInit
  | newKeys
  | service
  /-- The request that asks for nothing but the methods of the server. -/
  | methods
  | password
  | keyQuery
  | keySigned
  | channelOpen
  | requestFailure
  | terminal
  /-- A command or a shell. -/
  | program
  | data
  | channelFailure
  | channelClose
  | disconnect
  deriving DecidableEq

namespace MessageKind

def code : MessageKind → MessageCode
  | .proposal => .kexInit
  | .dhInit => .dhInit
  | .gexRequest => .gexRequest
  | .gexInit => .gexInit
  | .newKeys => .newKeys
  | .service => .serviceRequest
  | .methods | .password | .keyQuery | .keySigned => .userauthRequest
  | .channelOpen => .channelOpen
  | .requestFailure => .requestFailure
  | .terminal | .program => .channelRequest
  | .data => .channelData
  | .channelFailure => .channelFailure
  | .channelClose => .channelClose
  | .disconnect => .disconnect

def connection (kind : MessageKind) : Bool := 80 ≤ kind.code.toByte

/-- May the second message be sent after the first? Nothing of the connection protocol
comes before the channel, no data before the program, and nothing after the close. -/
def follows (first second : MessageKind) : Bool :=
  !(first.connection && second == .channelOpen) && !(first == .data && second == .program) &&
    first != .channelClose

end MessageKind

section Order

/-- Key agreement, in a fixed group or in one that the server chooses. -/
def agreement : RegularExpression MessageKind :=
  char .proposal * (char .dhInit + char .gexRequest * char .gexInit) * char .newKeys

/-- Authentication: with nothing, or with the one credential. -/
def authentication : RegularExpression MessageKind :=
  char .service * char .methods * (1 + char .password + char .keyQuery * (1 + char .keySigned))

def talk : RegularExpression MessageKind :=
  star (char .requestFailure + char .data + char .channelFailure)

def opening (config : Config) : RegularExpression MessageKind :=
  (if config.pty.isSome then char .terminal else 1) * char .program

def conversation (config : Config) : RegularExpression MessageKind :=
  char .channelOpen * star (char .requestFailure) * opening config * talk * (1 + char .channelClose)

/-- All that a client says before it takes leave. -/
def script (config : Config) : RegularExpression MessageKind :=
  agreement * authentication * conversation config

/-- What is left of the script in a phase. -/
def remaining (config : Config) : Phase → RegularExpression MessageKind
  | .headerExchange => script config
  | .kexInit =>
    (char .dhInit + char .gexRequest * char .gexInit) * (char .newKeys * authentication) *
      conversation config
  | .groupNegotiation => char .gexInit * (char .newKeys * authentication) * conversation config
  | .kexReply => char .newKeys * authentication * conversation config
  | .newKeys => authentication * conversation config
  | .serviceAccept =>
    char .methods * (1 + char .password + char .keyQuery * (1 + char .keySigned)) *
      conversation config
  | .auth .methodsQuery =>
    (1 + char .password + char .keyQuery * (1 + char .keySigned)) * conversation config
  | .auth .publicKeyQuery => (1 + char .keySigned) * conversation config
  | .auth .password | .auth .publicKeySigned => conversation config
  | .channelOpen => star (char .requestFailure) * opening config * talk * (1 + char .channelClose)
  | .established => talk * (1 + char .channelClose)
  | .closed => 1

/-- What is said on the way from one phase to another. -/
inductive Cue (config : Config) : Phase → List MessageKind → Phase → Prop where
  | silent (phase : Phase) : Cue config phase [] phase
  | introduced : Cue config .headerExchange [.proposal] .kexInit
  | began : Cue config .kexInit [.dhInit] .kexReply
  | asked : Cue config .kexInit [.gexRequest] .groupNegotiation
  | chose : Cue config .groupNegotiation [.gexInit] .kexReply
  | replied : Cue config .kexReply [.newKeys] .newKeys
  | armed : Cue config .newKeys [.service] .serviceAccept
  | methods : Cue config .serviceAccept [.methods] (.auth .methodsQuery)
  | password : Cue config (.auth .methodsQuery) [.password] (.auth .password)
  | queried : Cue config (.auth .methodsQuery) [.keyQuery] (.auth .publicKeyQuery)
  | signed : Cue config (.auth .publicKeyQuery) [.keySigned] (.auth .publicKeySigned)
  | welcomed (stage : AuthStage) : Cue config (.auth stage) [.channelOpen] .channelOpen
  | refused : Cue config .channelOpen [.requestFailure] .channelOpen
  | confirmed : Cue config .channelOpen ((config.pty.map fun _ => .terminal).toList ++ [.program])
      .established
  | talked {kinds : List MessageKind} :
      (∀ kind ∈ kinds, kind ∈ [.requestFailure, .data, .channelFailure]) →
      Cue config .established kinds .established
  | parted : Cue config .established [.channelClose] .closed

variable {config : Config} {p q : Phase} {kinds more rest : List MessageKind}

theorem remaining_auth (stage : AuthStage) (matched : rest ∈ (conversation config).matches') :
    rest ∈ (remaining config (.auth stage)).matches' := by
  have skipped : rest ∈ 1 * (conversation config).matches' := by rwa [one_mul]
  cases stage <;> simp only [remaining, matches'_mul, matches'_add, matches'_epsilon, add_mul]
  case methodsQuery => exact .inl (.inl skipped)
  case publicKeyQuery => exact .inl skipped
  case password | publicKeySigned => exact matched

/-- What is left of the script before a step is what the step says and what is left
behind it. -/
theorem Cue.remaining (cue : Cue config p more q)
    (matched : rest ∈ (remaining config q).matches') :
    more ++ rest ∈ (SecureShell.remaining config p).matches' := by
  cases cue
  case welcomed stage =>
    refine remaining_auth stage ?_
    simp only [SecureShell.remaining, conversation, matches'_mul, mul_assoc] at matched ⊢
    exact Language.append_mem_mul rfl matched
  all_goals
    simp only [SecureShell.remaining, script, agreement, authentication, matches'_mul, matches'_add,
      matches'_char, mul_assoc, add_mul] at matched ⊢
  case silent => exact matched
  case introduced | replied | armed | methods | chose => exact Language.append_mem_mul rfl matched
  case began => exact .inl (Language.append_mem_mul rfl matched)
  case asked => exact .inr (Language.append_mem_mul rfl matched)
  case password => exact .inl (.inr (Language.append_mem_mul rfl matched))
  case queried => exact .inr (Language.append_mem_mul rfl matched)
  case signed => exact .inr (Language.append_mem_mul rfl matched)
  case refused =>
    obtain ⟨failures, hFailures, later, hLater, rfl⟩ := Language.mem_mul.1 matched
    rw [← List.append_assoc]
    refine Language.append_mem_mul (append_mem_star ?_ hFailures) hLater
    intro kind said
    rw [List.mem_singleton.1 said]
    rfl
  case confirmed =>
    have opens : (config.pty.map fun _ => .terminal).toList ++ [.program] ∈
        (opening config).matches' := by
      rw [opening, matches'_mul]
      refine Language.append_mem_mul ?_ rfl
      cases config.pty <;> rfl
    exact ⟨[], Language.mem_kstar.2 ⟨[], rfl, nofun⟩, _, Language.append_mem_mul opens matched, rfl⟩
  case talked listed =>
    obtain ⟨earlier, hEarlier, later, hLater, rfl⟩ := Language.mem_mul.1 matched
    rw [← List.append_assoc]
    refine Language.append_mem_mul (append_mem_star ?_ hEarlier) hLater
    intro kind said
    have known := listed kind said
    simp only [List.mem_cons, List.not_mem_nil, or_false] at known
    rcases known with rfl | rfl | rfl
    · exact .inl (.inl rfl)
    · exact .inl (.inr rfl)
    · exact .inr rfl
  case parted =>
    obtain rfl : rest = [] := matched
    exact ⟨[], Language.mem_kstar.2 ⟨[], rfl, nofun⟩, _, .inr rfl, rfl⟩

/-- What was said can be continued to a whole script, from any phase. -/
theorem exists_remaining (config : Config) (phase : Phase) :
    ∃ rest, rest ∈ (remaining config phase).matches' := by
  have closed : ∃ rest, rest ∈ (remaining config .closed).matches' := ⟨[], rfl⟩
  have before {p q : Phase} {more : List MessageKind} (cue : Cue config p more q) :
      (∃ rest, rest ∈ (remaining config q).matches') →
        ∃ rest, rest ∈ (remaining config p).matches' :=
    fun ⟨rest, matched⟩ => ⟨more ++ rest, cue.remaining matched⟩
  have channelOpen := before .confirmed (before .parted closed)
  have auth (stage : AuthStage) := before (.welcomed stage) channelOpen
  have kexReply := before .replied (before .armed (before .methods (auth .methodsQuery)))
  cases phase with
  | closed => exact closed
  | established => exact before .parted closed
  | channelOpen => exact channelOpen
  | auth stage => exact auth stage
  | serviceAccept => exact before .methods (auth _)
  | newKeys => exact before .armed (before .methods (auth _))
  | kexReply => exact kexReply
  | groupNegotiation => exact before .chose kexReply
  | kexInit => exact before .began kexReply
  | headerExchange => exact before .introduced (before .began kexReply)

/-- What a client has said so far: some of the script from its beginning, or this and
the message with which it takes leave. -/
inductive FollowsScript (config : Config) : List MessageKind → Prop where
  | begun {kinds : List MessageKind} (rest : List MessageKind) :
      kinds ++ rest ∈ (script config).matches' → FollowsScript config kinds
  | left {kinds : List MessageKind} (rest : List MessageKind) :
      kinds ++ rest ∈ (script config).matches' → FollowsScript config (kinds ++ [.disconnect])

/-- What a script says of the order of messages. -/
structure Disciplined (kinds : List MessageKind) : Prop where
  /-- Nothing of the connection protocol is sent before the channel is opened. -/
  opened {front back : List MessageKind} {kind : MessageKind} : kinds = front ++ kind :: back →
    kind.connection = true → kind ≠ .channelOpen → .channelOpen ∈ front
  /-- Data is sent between the start of the program and the close of the channel. -/
  within {front back : List MessageKind} : kinds = front ++ .data :: back →
    .program ∈ front ∧ .channelClose ∉ front
  closedOnce : kinds.count .channelClose ≤ 1
  leftOnce : kinds.count .disconnect ≤ 1
  /-- Nothing is sent behind the last message. -/
  last {front back : List MessageKind} : kinds = front ++ .disconnect :: back → back = []

theorem script_ordered (config : Config) : (script config).ordered MessageKind.follows = true := by
  unfold script conversation opening
  cases config.pty.isSome <;> rfl

theorem script_requires (config : Config) :
    (script config).requires .channelOpen = true ∧ (script config).requires .program = true := by
  unfold script conversation opening
  cases config.pty.isSome <;> exact ⟨rfl, rfl⟩

theorem script_letters (config : Config) : .disconnect ∉ (script config).letters := by
  unfold script conversation opening
  cases config.pty.isSome <;> decide

/-- What stands around a message is part of a script, if it is not the last one. -/
theorem FollowsScript.around {front back : List MessageKind} {kind : MessageKind}
    (follows : FollowsScript config kinds) (split : kinds = front ++ kind :: back)
    (stays : kind ≠ .disconnect) :
    ∃ behind, front ++ kind :: behind ∈ (script config).matches' := by
  cases follows with
  | begun rest matched =>
    rw [split, List.append_assoc, List.cons_append] at matched
    exact ⟨_, matched⟩
  | @left kinds rest matched =>
    rcases List.eq_nil_or_concat back with rfl | ⟨between, last, rfl⟩
    · exact absurd (List.append_inj_right' split rfl) fun same => stays (List.cons.inj same).1.symm
    · rw [List.concat_eq_append, ← List.cons_append, ← List.append_assoc] at split
      rw [List.append_inj_left' split rfl, List.append_assoc, List.cons_append] at matched
      exact ⟨_, matched⟩

theorem count_disconnect (matched : kinds ++ rest ∈ (script config).matches') :
    kinds.count .disconnect = 0 := by
  refine List.count_eq_zero.2 fun said => script_letters config ?_
  exact RegularExpression.mem_letters matched _ (List.mem_append_left _ said)

theorem count_channelClose (matched : kinds ++ rest ∈ (script config).matches') :
    kinds.count .channelClose ≤ 1 := by
  refine Nat.le_of_not_lt fun twice => ?_
  have pair : [.channelClose, .channelClose].Sublist kinds :=
    List.replicate_sublist_iff.2 twice
  have ordered := RegularExpression.pairwise_of_ordered (script_ordered config) matched
  have follows := ordered.sublist (pair.trans (List.sublist_append_left kinds rest))
  exact absurd (List.rel_of_pairwise_cons follows (.head _)) (by decide)

theorem FollowsScript.disciplined (follows : FollowsScript config kinds) : Disciplined kinds where
  opened := by
    intro front back kind split connection other
    obtain ⟨behind, matched⟩ := follows.around split (by rintro rfl; cases connection)
    have ordered := RegularExpression.pairwise_of_ordered (script_ordered config) matched
    have required := RegularExpression.mem_of_requires (script_requires config).1 matched
    rcases List.mem_append.1 required with before | later
    · exact before
    rcases List.mem_cons.1 later with same | later
    · exact absurd same.symm other
    · have after := List.rel_of_pairwise_cons (List.pairwise_append.1 ordered).2.1 later
      simp [MessageKind.follows, connection] at after
  within := by
    intro front back split
    obtain ⟨behind, matched⟩ := follows.around split (by decide)
    have ordered := RegularExpression.pairwise_of_ordered (script_ordered config) matched
    have required := RegularExpression.mem_of_requires (script_requires config).2 matched
    obtain ⟨-, behindData, across⟩ := List.pairwise_append.1 ordered
    refine ⟨?_, fun closed => absurd (across _ closed _ (.head _)) (by decide)⟩
    rcases List.mem_append.1 required with before | later
    · exact before
    rcases List.mem_cons.1 later with same | later
    · cases same
    · exact absurd (List.rel_of_pairwise_cons behindData later) (by decide)
  closedOnce := by
    cases follows with
    | begun rest matched => exact count_channelClose matched
    | left rest matched =>
      rw [List.count_append]
      exact count_channelClose matched
  leftOnce := by
    cases follows with
    | begun rest matched =>
      rw [count_disconnect matched]
      exact Nat.zero_le _
    | left rest matched =>
      rw [List.count_append, count_disconnect matched]
      exact Nat.le_refl _
  last := by
    intro front back split
    cases follows with
    | begun rest matched =>
      have none := count_disconnect matched
      simp [split] at none
    | left rest matched =>
      have none := count_disconnect matched
      rcases List.eq_nil_or_concat back with rfl | ⟨between, last, rfl⟩
      · rfl
      · rw [List.concat_eq_append, ← List.cons_append, ← List.append_assoc] at split
        simp [List.append_inj_left' split rfl] at none

end Order

section Bytes

open Handshake (publicMessage groupRequest)

/-- The payloads of each kind, for a peer that numbers the channel as given, if it has
confirmed it. -/
inductive Utters (config : Config) (peer : Option UInt32) : MessageKind → Bytes → Prop
  | proposal (entropy : Entropy) :
      Utters config peer .proposal (Proposal.ofPreferences entropy config.preferences).toBytes
  | dhInit (exchange : DhExchange) : Utters config peer .dhInit (publicMessage .dhInit exchange)
  | gexRequest : Utters config peer .gexRequest (groupRequest config.groupBounds)
  | gexInit (exchange : DhExchange) : Utters config peer .gexInit (publicMessage .gexInit exchange)
  | newKeys : Utters config peer .newKeys (NewKeys.toBytes {})
  | service : Utters config peer .service (Service.request Service.userauth)
  | methods : Utters config peer .methods
      (UserauthRequest.toBytes { user := config.username, method := .none })
  | password {word : String} : config.credential = .password word → Utters config peer .password
      (UserauthRequest.toBytes { user := config.username, method := .password word })
  | keyQuery {identity : ClientKey} : config.credential = .key identity →
      Utters config peer .keyQuery (UserauthRequest.toBytes
        { user := config.username, method := .query identity.algorithm identity.blob })
  | keySigned {identity : ClientKey} (signature : Bytes) : config.credential = .key identity →
      Utters config peer .keySigned (UserauthRequest.toBytes
        { user := config.username, method := .signed identity.algorithm identity.blob signature })
  | channelOpen : Utters config peer .channelOpen
      (ChannelOpen.session SessionChannel.localId config.windowSize config.maxPacketSize).toBytes
  | requestFailure : Utters config peer .requestFailure GlobalRequest.failure
  | terminal {number : UInt32} {pty : Pty} : peer = some number → config.pty = some pty →
      Utters config peer .terminal (ChannelRequest.toBytes ⟨number, false, .pty pty⟩)
  | program {number : UInt32} : peer = some number → Utters config peer .program
      (ChannelRequest.toBytes ⟨number, false, (config.command.map .exec).getD .shell⟩)
  | data {number : UInt32} {piece : Bytes} : peer = some number → piece.length < 2 ^ 32 →
      Utters config peer .data (DataMessage.toBytes ⟨number, piece⟩)
  | channelFailure {number : UInt32} : peer = some number →
      Utters config peer .channelFailure (ChannelOnly.toBytes .channelFailure number)
  | channelClose {number : UInt32} : peer = some number →
      Utters config peer .channelClose (ChannelOnly.toBytes .channelClose number)
  | disconnect (message : Disconnect) : Utters config peer .disconnect message.toBytes

variable {config : Config} {peer : Option UInt32} {kind : MessageKind} {payload : Bytes}

theorem Utters.head (utters : Utters config peer kind payload) :
    payload.head? = some kind.code.toByte := by
  cases utters <;> rfl

theorem heads_of_utters {kinds : List MessageKind} {payloads : List Bytes}
    (utters : List.Forall₂ (Utters config peer) kinds payloads) :
    payloads.map List.head? = kinds.map fun kind => some kind.code.toByte := by
  induction utters with
  | nil => rfl
  | cons first _ ih => rw [List.map_cons, List.map_cons, first.head, ih]

theorem kind_of_mem {kinds : List MessageKind} {payloads : List Bytes}
    (utters : List.Forall₂ (Utters config peer) kinds payloads) (sent : payload ∈ payloads) :
    ∃ kind ∈ kinds, Utters config peer kind payload := by
  induction utters with
  | nil => cases sent
  | @cons kind _ _ _ first _ ih =>
    rcases List.mem_cons.1 sent with rfl | later
    · exact ⟨kind, .head _, first⟩
    · obtain ⟨other, listed, utters⟩ := ih later
      exact ⟨other, .tail _ listed, utters⟩

/-- What can be said before the channel is confirmed can be said afterwards. -/
theorem Utters.known (utters : Utters config none kind payload) :
    Utters config peer kind payload := by
  cases utters with
  | proposal entropy => exact .proposal entropy
  | dhInit exchange => exact .dhInit exchange
  | gexRequest => exact .gexRequest
  | gexInit exchange => exact .gexInit exchange
  | newKeys => exact .newKeys
  | service => exact .service
  | methods => exact .methods
  | password own => exact .password own
  | keyQuery own => exact .keyQuery own
  | keySigned signature own => exact .keySigned signature own
  | channelOpen => exact .channelOpen
  | requestFailure => exact .requestFailure
  | disconnect message => exact .disconnect message
  | terminal known | program known | data known | channelFailure known | channelClose known =>
    cases known

theorem Utters.data_of_head (utters : Utters config peer kind payload)
    (head : payload.head? = some MessageCode.channelData.toByte) : kind = .data := by
  rw [utters.head] at head
  cases kind <;> first | rfl | cases head

def dataOf (payload : Bytes) : Bytes :=
  match DataMessage.parse payload with
  | .ok message => message.data
  | .error _ => []

theorem dataOf_toBytes {message : DataMessage} (fits : message.data.length < 2 ^ 32) :
    dataOf message.toBytes = message.data := by
  have read : DataMessage.parse message.toBytes = .ok message :=
    ((reads_expect .channelData).bind ((Wire.reads_uint32 message.recipient).bind
      ((Wire.reads_string fits).map (DataMessage.mk message.recipient)))).parse
  rw [dataOf, read]

theorem Utters.dataOf_eq_nil (utters : Utters config peer kind payload) (other : kind ≠ .data) :
    dataOf payload = [] := by
  unfold dataOf
  split
  · rename_i message read
    have head := Handshake.head_of_expect read
    rw [List.headD_eq_head?_getD, utters.head, Option.getD_some] at head
    exact absurd (utters.data_of_head (head ▸ utters.head)) other
  · rfl

end Bytes

end SecureShell

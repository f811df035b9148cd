import ArmSession.Wire.Header

/-!
# What the header lets through

A message is judged by its first four bytes and by its size before any field is read. `Misfit`
lists the causes for which it is turned away at this point, each with the messages that it is
about, and these are all: any other message has the expected kind, declares the expected size and
has it.
-/

namespace ArmSession

theorem MessageKind.ofCode?_eq_none_iff {b : UInt8} : ofCode? b = none ↔ ∀ k, code k ≠ b := by
  constructor
  · rintro h k rfl
    rw [ofCode?_code] at h
    cases h
  · intro h
    cases hk : ofCode? b with
    | none => rfl
    | some k => exact absurd ((ofCode?_eq_some_iff b k).1 hk).symm (h k)

namespace Wire

inductive Misfit (kind : MessageKind) (size : Nat) : Bytes → MessageError → Prop
  | truncated {m : Bytes} (short : m.length < headerSize) :
      Misfit kind size m (.truncated headerSize m.length)
  | unknownKind {code flags low high : UInt8} {body : Bytes}
      (unknown : ∀ k : MessageKind, k.code ≠ code) :
      Misfit kind size (code :: flags :: low :: high :: body) (.unknownKind code)
  | unexpectedKind {actual : MessageKind} {flags low high : UInt8} {body : Bytes}
      (unexpected : actual ≠ kind) :
      Misfit kind size (actual.code :: flags :: low :: high :: body)
        (.unexpectedKind kind actual)
  | declaredSize {flags low high : UInt8} {body : Bytes}
      (wrong : ofLittleEndian [low, high] ≠ size) :
      Misfit kind size (kind.code :: flags :: low :: high :: body)
        (.invalidLength kind size (ofLittleEndian [low, high]))
  | actualSize {flags low high : UInt8} {body : Bytes}
      (declared : ofLittleEndian [low, high] = size) (wrong : body.length ≠ size) :
      Misfit kind size (kind.code :: flags :: low :: high :: body)
        (.invalidLength kind size body.length)

/-- A message of the kind and of the size, with its payload. The second byte is free. -/
inductive Fits (kind : MessageKind) (size : Nat) : Bytes → Bytes → Prop
  | intro {flags low high : UInt8} {body : Bytes} (declared : ofLittleEndian [low, high] = size)
      (actual : body.length = size) :
      Fits kind size (kind.code :: flags :: low :: high :: body) body

variable {kind : MessageKind} {size : Nat}

theorem payload_of_short {m : Bytes} (h : m.length < headerSize) :
    payload m kind size = .error (.truncated headerSize m.length) := by
  match m, h with
  | [], _ => rfl
  | [_], _ => rfl
  | [_, _], _ => rfl
  | [_, _, _], _ => rfl
  | _ :: _ :: _ :: _ :: _, h => exact absurd h (by simp [headerSize])

theorem payload_of_unknown {code flags low high : UInt8} {body : Bytes}
    (h : ∀ k : MessageKind, k.code ≠ code) :
    payload (code :: flags :: low :: high :: body) kind size = .error (.unknownKind code) := by
  simp [payload, Header.decode, MessageKind.ofCode?_eq_none_iff.2 h]

/-- Behind a known kind the checks are made in turn. -/
theorem payload_of_known (actual : MessageKind) (flags low high : UInt8) (body : Bytes) :
    payload (actual.code :: flags :: low :: high :: body) kind size =
      if actual ≠ kind then .error (.unexpectedKind kind actual)
      else if ofLittleEndian [low, high] ≠ size then
        .error (.invalidLength kind size (ofLittleEndian [low, high]))
      else if body.length ≠ size then .error (.invalidLength kind size body.length)
      else .ok body := by
  have hlow : ofLittleEndian [low, high] < UInt16.size := ofLittleEndian_lt [low, high]
  have hsize : (UInt16.ofNat (ofLittleEndian [low, high])).toNat = ofLittleEndian [low, high] :=
    UInt16.toNat_ofNat_of_lt' hlow
  simp only [payload, Header.decode, MessageKind.ofCode?_code, hsize]

theorem Header.encode_ofSize (kind : MessageKind) (hsize : size < UInt16.size) :
    (ofSize kind size).encode = kind.code :: 0 :: littleEndian 2 size := by
  have h : (UInt16.ofNat size).toNat = size := UInt16.toNat_ofNat_of_lt' hsize
  simp only [ofSize, encode, bytes16, h, List.cons_append, List.nil_append]

theorem header_cases (m : Bytes) : m.length < headerSize ∨
    (∃ code flags low high body, m = code :: flags :: low :: high :: body ∧
      ∀ k : MessageKind, k.code ≠ code) ∨
    ∃ (k : MessageKind) (flags low high : UInt8) (body : Bytes),
      m = k.code :: flags :: low :: high :: body := by
  match m with
  | [] => exact .inl (by decide)
  | [_] => exact .inl (by simp [headerSize])
  | [_, _] => exact .inl (by simp [headerSize])
  | [_, _, _] => exact .inl (by simp [headerSize])
  | code :: flags :: low :: high :: body =>
      cases hk : MessageKind.ofCode? code with
      | none =>
          exact .inr (.inl ⟨code, flags, low, high, body, rfl,
            MessageKind.ofCode?_eq_none_iff.1 hk⟩)
      | some k =>
          have hcode := (MessageKind.ofCode?_eq_some_iff code k).1 hk
          exact .inr (.inr ⟨k, flags, low, high, body, by rw [hcode]⟩)

theorem payload_of_misfit {m : Bytes} {e : MessageError} (h : Misfit kind size m e) :
    payload m kind size = .error e := by
  cases h with
  | truncated short => exact payload_of_short short
  | unknownKind unknown => exact payload_of_unknown unknown
  | unexpectedKind unexpected => rw [payload_of_known, if_pos unexpected]
  | declaredSize wrong =>
      rw [payload_of_known, if_neg (not_not_intro rfl), if_pos wrong]
  | actualSize declared wrong =>
      rw [payload_of_known, if_neg (not_not_intro rfl), if_neg (not_not_intro declared),
        if_pos wrong]

/-- What is not turned away fits. -/
theorem misfit_or_fits (kind : MessageKind) (size : Nat) (m : Bytes) :
    (∃ e, Misfit kind size m e) ∨ ∃ body, Fits kind size m body := by
  obtain hshort | ⟨code, flags, low, high, body, rfl, hunknown⟩ |
    ⟨k, flags, low, high, body, rfl⟩ := header_cases m
  · exact .inl ⟨_, .truncated hshort⟩
  · exact .inl ⟨_, .unknownKind hunknown⟩
  · by_cases hk : k = kind
    · subst hk
      by_cases hdeclared : ofLittleEndian [low, high] = size
      · by_cases hactual : body.length = size
        · exact .inr ⟨body, .intro hdeclared hactual⟩
        · exact .inl ⟨_, .actualSize hdeclared hactual⟩
      · exact .inl ⟨_, .declaredSize hdeclared⟩
    · exact .inl ⟨_, .unexpectedKind hk⟩

theorem payload_of_fits {m body : Bytes} (h : Fits kind size m body) :
    payload m kind size = .ok body := by
  obtain ⟨hdeclared, hactual⟩ := h
  rw [payload_of_known, if_neg (not_not_intro rfl), if_neg (not_not_intro hdeclared),
    if_neg (not_not_intro hactual)]

theorem payload_eq_error_iff {m : Bytes} {e : MessageError} :
    payload m kind size = .error e ↔ Misfit kind size m e := by
  refine ⟨fun h => ?_, payload_of_misfit⟩
  obtain ⟨e', he'⟩ | ⟨body, hbody⟩ := misfit_or_fits kind size m
  · rw [payload_of_misfit he'] at h
    cases h
    exact he'
  · rw [payload_of_fits hbody] at h
    cases h

theorem payload_eq_ok_iff {m body : Bytes} :
    payload m kind size = .ok body ↔ Fits kind size m body := by
  refine ⟨fun h => ?_, payload_of_fits⟩
  obtain ⟨e, he⟩ | ⟨body', hbody'⟩ := misfit_or_fits kind size m
  · rw [payload_of_misfit he] at h
    cases h
  · rw [payload_of_fits hbody'] at h
    cases h
    exact hbody'

theorem Fits.length_eq {m body : Bytes} (h : Fits kind size m body) : body.length = size := by
  obtain ⟨-, hactual⟩ := h
  exact hactual

/-- The bytes of a message that fits. -/
theorem fits_iff (hsize : size < UInt16.size) {m body : Bytes} : Fits kind size m body ↔
    body.length = size ∧ ∃ flags, m = kind.code :: flags :: (littleEndian 2 size ++ body) := by
  constructor
  · rintro @⟨flags, low, high, body, hdeclared, hactual⟩
    have hbytes : littleEndian 2 size = [low, high] := by
      rw [← hdeclared]
      exact littleEndian_ofLittleEndian [low, high]
    exact ⟨hactual, flags, by rw [hbytes]; rfl⟩
  · rintro ⟨hactual, flags, rfl⟩
    have hdeclared : ofLittleEndian (littleEndian 2 size) = size := by
      rw [ofLittleEndian_littleEndian, capacity_two, Nat.mod_eq_of_lt hsize]
    exact .intro hdeclared hactual

end Wire

end ArmSession

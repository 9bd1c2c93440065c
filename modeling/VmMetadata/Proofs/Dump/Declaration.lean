import VmMetadata.Inspect.Declaration
import VmMetadata.Proofs.Session.Finds

/-!
Declarations as they can be looked up in the machine. A declaration is made of what getters yield,
so it is in the words that a look finds, whatever the session has noted before; and two sessions
that differ in their build alone declare a class in the same words, or fail with the same error.
Main statement: every class of a well-formed machine has its declaration.
-/

namespace VmMetadata

open Query (Agree Agrees Finds Says Sees SeesAny SeesAll)

/-- The query has the same outcome in the two sessions, whatever it is. -/
abbrev Query.Same (x : Query α) (s₁ s₂ : Session) : Prop :=
  Agrees x s₁ s₂ (fun _ _ => True) True

variable {s₁ s₂ : Session}

theorem Query.Agree.same {x : Query α} {P : α → Session → Prop} {E : Prop}
    (h : Agrees x s₁ s₂ P E) : x.Same s₁ s₂ :=
  h.weaken (fun _ _ _ _ => trivial) fun _ => trivial

theorem Query.Finds.same {x : Query α} {look : Look β} {part : α → β} {S : α → Session → Prop}
    (h : x.Finds s₁ s₂ look part S) : x.Same s₁ s₂ :=
  Agree.same h

/-! ## Looks -/

namespace Look

def fieldFlag (f : Handle) (bit : UInt32) : Look Bool := do
  pure ((← ask (.fieldFlags f) rfl) &&& bit != 0)

def fieldModifiers (f : Handle) : Look String := do
  if ← fieldFlag f Attribute.literalField then pure "const "
  else do
    let isStatic ← fieldFlag f Attribute.staticField
    let isReadOnly ← fieldFlag f Attribute.readOnlyField
    pure ((if isStatic then "static " else "") ++ if isReadOnly then "readonly " else "")

def fieldPlace (f : Handle) : Look String := do
  if ← fieldFlag f Attribute.literalField then pure ""
  else do pure (" // " ++ offsetText (← ask (.fieldOffset f) rfl))

def fieldDeclaration (f : Handle) : Look String := do
  let modifiers ← fieldModifiers f
  let type ← ask (.typeName (← object (.fieldType f) rfl)) rfl
  let name ← ask (.fieldName f) rfl
  let place ← fieldPlace f
  pure (modifiers ++ type ++ " " ++ name ++ ";" ++ place)

def methodFlag (m : Handle) (bit : UInt32) : Look Bool := do
  pure ((← ask (.methodFlags m) rfl) &&& bit != 0)

def dispatch (m : Handle) : Look String := do
  if ← methodFlag m Attribute.abstractMethod then pure "abstract "
  else do pure (if ← methodFlag m Attribute.virtualMethod then "virtual " else "")

def ownParameters (m : Handle) : Look String := do
  if ← ask (.methodIsGeneric m) rfl then do
    pure (genericName "" (parameterNames (← ask (.methodTypeParameterCount m) rfl)))
  else pure ""

/-- The names and the types of so many parameters from the position on. -/
def parametersFrom (m : Handle) : Nat → Nat → Look (List (String × Handle))
  | _, 0 => pure []
  | position, count + 1 => do
      let name ← ask (.methodParameterName m position) rfl
      let type ← require (← ask (.methodParameterType m position) rfl)
      let rest ← parametersFrom m (position + 1) count
      pure ((name, type) :: rest)

def parameters (m : Handle) : Look (List (String × Handle)) := do
  parametersFrom m 0 (← ask (.methodParameterCount m) rfl)

def parameterText (p : String × Handle) : Look String := do
  pure ((← ask (.typeName p.2) rfl) ++ " " ++ p.1)

/-- The address column of the method, if it has a body. -/
def token? (m : Handle) : Look (Option String) := do
  let p ← ask (.methodPointer m) rfl
  if p = 0 then pure none
  else do pure (some (addressToken (← ask .moduleBase rfl) (← ask .pointerSize rfl) p))

def methodPlace (m : Handle) : Look String := do
  match ← token? m with
  | some token => pure (" // " ++ token)
  | none => pure ""

def methodDeclaration (m : Handle) : Look String := do
  let isStatic ← methodFlag m Attribute.staticMethod
  let dispatch ← dispatch m
  let returnType ← ask (.typeName (← object (.methodReturnType m) rfl)) rfl
  let name ← ask (.methodName m) rfl
  let generic ← ownParameters m
  let parameters ← (← parameters m).mapM parameterText
  let place ← methodPlace m
  pure ((if isStatic then "static " else "") ++ dispatch ++ returnType ++ " " ++ name ++ generic ++
    "(" ++ ", ".intercalate parameters ++ ");" ++ place)

def classFlag (c : Handle) (bit : UInt32) : Look Bool := do
  pure ((← ask (.classFlags c) rfl) &&& bit != 0)

def kind (c : Handle) : Look ClassKind := do
  if ← ask (.classIsInterface c) rfl then pure .interface
  else if ← ask (.classIsEnum c) rfl then pure .enum
  else if ← ask (.classIsValueType c) rfl then pure .struct
  else pure .class_

/-- The name of the class's type. -/
def className (c : Handle) : Look String := do
  ask (.typeName (← object (.classType c) rfl)) rfl

def modifierText (c : Handle) (kind : ClassKind) : Look String :=
  if kind = .class_ then do
    pure (Class.modifiers (← classFlag c Attribute.abstractClass)
      (← classFlag c Attribute.sealedClass))
  else pure ""

def parentName (c : Handle) (kind : ClassKind) : Look (List String) := do
  match (← ask (.classParent c) rfl).nonNull? with
  | some p =>
      if kind = .class_ then do
        let name ← className p
        pure (if name = "System.Object" then [] else [name])
      else pure []
  | none => pure []

def inherited (c : Handle) (kind : ClassKind) : Look (List String) := do
  let parent ← parentName c kind
  let interfaces ← (← objects (.classInterfaces c) rfl).mapM className
  pure (parent ++ interfaces)

def classDeclaration (c : Handle) : Look String := do
  let kind ← kind c
  let image ← ask (.imageName (← object (.classImage c) rfl)) rfl
  let modifiers ← modifierText c kind
  let name ← className c
  let inherited ← inherited c kind
  let fields ← (← objects (.classFields c) rfl).mapM fieldDeclaration
  let methods ← (← objects (.classMethods c) rfl).mapM methodDeclaration
  pure ("// " ++ image ++ "\n" ++ modifiers ++ kind.keyword ++ " " ++ name ++
    (if inherited = [] then "" else " : " ++ ", ".intercalate inherited) ++ "\n\x7b\n" ++
    Class.indentedLines fields ++ (if fields = [] ∨ methods = [] then "" else "\n") ++
    Class.indentedLines methods ++ "\x7d")

end Look

/-! ## Fields -/

namespace Field

variable (h : s₁.Alike s₂) {f : Field} (hf : s₁.Shows f)
include h hf

theorem flag_finds (bit : UInt32) :
    Says (do pure ((← f.flags) &&& bit != 0)) s₁ s₂ (Look.fieldFlag f.handle bit) :=
  (Says.of_tells (.fieldFlags _) (flags_agrees h hf) rfl).map (· &&& bit != 0)

theorem modifiers_finds : f.modifiers.Says s₁ s₂ (Look.fieldModifiers f.handle) := by
  refine Says.bind (flag_finds h hf Attribute.literalField) fun isLiteral t₁ t₂ on _ => ?_
  cases isLiteral with
  | true => exact .pure on.alike _
  | false =>
      refine Says.bind (flag_finds on.alike (hf.later on.left) _) fun _ u₁ u₂ on' _ => ?_
      have hlater := on.left.trans on'.left
      exact Says.bind (flag_finds on'.alike (hf.later hlater) _) fun _ _ _ on'' _ =>
        .pure on''.alike _

theorem place_finds : f.place.Says s₁ s₂ (Look.fieldPlace f.handle) := by
  refine Says.bind (flag_finds h hf Attribute.literalField) fun isLiteral t₁ t₂ on _ => ?_
  cases isLiteral with
  | true => exact .pure on.alike _
  | false =>
      exact (Says.of_tells (.fieldOffset _) (offset_agrees on.alike (hf.later on.left)) rfl).map
        fun offset => " // " ++ offsetText offset

theorem declaration_finds : f.declaration.Says s₁ s₂ (Look.fieldDeclaration f.handle) := by
  refine Says.bind (modifiers_finds h hf) fun _ t₁ t₂ on _ => ?_
  have hlater := on.left
  refine Says.bind (Sees.of_showsAt (.fieldType _) (type_agrees on.alike (hf.later hlater)) rfl)
    fun type u₁ u₂ on htype => ?_
  have hlater := hlater.trans on.left
  refine Says.bind (Says.of_tells (.typeName _) (TypeView.name_agrees on.alike htype) rfl)
    fun _ v₁ v₂ on _ => ?_
  have hlater := hlater.trans on.left
  refine Says.bind (Says.of_tells (.fieldName _) (name_agrees on.alike (hf.later hlater)) rfl)
    fun _ w₁ w₂ on _ => ?_
  have hlater := hlater.trans on.left
  exact Says.bind (place_finds on.alike (hf.later hlater)) fun _ _ _ on _ => .pure on.alike _

end Field

/-! ## Methods -/

namespace Look

variable {v : Vm} {m : Handle}

theorem finds_token? {token? : Option String} :
    (Look.token? m).Finds v token? ↔
      ∃ p, v.Tells (.methodPointer m) p ∧ token? = v.token? p := by
  unfold Look.token? Vm.token?
  rw [finds_bind]
  refine exists_congr fun p => and_congr_right fun _ => ?_
  by_cases hzero : p = 0
  · rw [if_pos hzero, if_pos hzero, finds_pure]
  · rw [if_neg hzero, if_neg hzero]
    simp only [finds_bind, finds_pure]
    constructor
    · rintro ⟨base, hbase, size, hsize, rfl⟩
      cases hbase
      cases hsize
      rfl
    · rintro rfl
      exact ⟨_, rfl, _, rfl, rfl⟩

/-- Parameters are found one position after the other. -/
theorem finds_parametersFrom : ∀ {count position : Nat} {ps : List (String × Handle)},
    (parametersFrom m position count).Finds v ps ↔ ps.length = count ∧
      ∀ k p, ps[k]? = some p → v.Tells (.methodParameterName m (position + k)) p.1 ∧
        v.Tells (.methodParameterType m (position + k)) p.2 ∧ p.2 ≠ .null
  | 0, position, ps => by
      rw [parametersFrom, finds_pure, List.length_eq_zero_iff]
      refine ⟨fun h => ⟨h, by simp [h]⟩, fun h => h.1⟩
  | count + 1, position, ps => by
      rw [parametersFrom]
      simp only [finds_bind, finds_require, finds_pure, finds_parametersFrom]
      constructor
      · rintro ⟨name, hname, _, htype, type, ⟨rfl, hne⟩, rest, ⟨hlength, hrest⟩, rfl⟩
        refine ⟨by rw [List.length_cons, hlength], fun k p hp => ?_⟩
        cases k with
        | zero =>
            cases hp
            exact ⟨hname, htype, hne⟩
        | succ k =>
            rw [show position + (k + 1) = position + 1 + k by omega]
            exact hrest k p hp
      · rintro ⟨hlength, hall⟩
        cases ps with
        | nil => cases hlength
        | cons p rest =>
            obtain ⟨hname, htype, hne⟩ := hall 0 p rfl
            refine ⟨p.1, hname, p.2, htype, p.2, ⟨rfl, hne⟩, rest, ⟨?_, fun k q hq => ?_⟩, rfl⟩
            · simpa using hlength
            · rw [show position + 1 + k = position + (k + 1) by omega]
              exact hall (k + 1) q hq

end Look

theorem Parameter.text_finds (h : s₁.Alike s₂) {p : Parameter} (hp : s₁.Shows p.type) :
    p.text.Says s₁ s₂ (Look.parameterText (p.name, p.type.handle)) :=
  (Says.of_tells (.typeName _) (TypeView.name_agrees h hp) rfl).map (· ++ " " ++ p.name)

namespace Method

/-- What is looked up about a parameter. -/
def parameterKey (p : Parameter) : String × Handle :=
  (p.name, p.type.handle)

/-- The parameters stand at their positions, and their types are views of this session. -/
def ShowsFrom (s : Session) (position : Nat) (ps : List Parameter) : Prop :=
  ∀ k p, ps[k]? = some p → p.position = position + k ∧ s.Shows p.type

theorem readParameters_finds (m : Method) : ∀ (count position : Nat) {s₁ s₂ : Session},
    s₁.Alike s₂ → (m.readParameters position count).Finds s₁ s₂
      (Look.parametersFrom m.handle position count) (List.map parameterKey)
      fun ps t => ShowsFrom t position ps
  | 0, _, _, _, h => Finds.pure h (List.map parameterKey) fun _ _ hp => by simp at hp
  | count + 1, position, _, _, h => by
      refine Finds.bind (Says.of_tells (.methodParameterName _ _) (Agree.tell h rfl rfl) rfl)
        fun name t₁ t₂ on _ => ?_
      refine Finds.bind (Says.of_tells (.methodParameterType _ _) (Agree.tell on.alike rfl rfl) rfl)
        fun k u₁ u₂ on _ => ?_
      refine Finds.bind (Sees.view on.alike .type k) fun type v₁ v₂ on htype => ?_
      refine Finds.bind (readParameters_finds m count (position + 1) on.alike)
        fun rest w₁ w₂ on hrest => ?_
      refine Finds.pure on.alike (List.map parameterKey) fun j p hp => ?_
      cases j with
      | zero =>
          cases hp
          exact ⟨rfl, htype.later on.left⟩
      | succ j =>
          rw [show position + (j + 1) = position + 1 + j by omega]
          exact hrest j p hp

variable (h : s₁.Alike s₂) {m : Method} (hm : s₁.Shows m)
include h hm

theorem flag_finds (bit : UInt32) :
    Says (do pure ((← m.flags) &&& bit != 0)) s₁ s₂ (Look.methodFlag m.handle bit) :=
  (Says.of_tells (.methodFlags _) (flags_agrees h hm) rfl).map (· &&& bit != 0)

theorem dispatch_finds : m.dispatch.Says s₁ s₂ (Look.dispatch m.handle) := by
  refine Says.bind (flag_finds h hm Attribute.abstractMethod) fun isAbstract t₁ t₂ on _ => ?_
  cases isAbstract with
  | true => exact .pure on.alike _
  | false =>
      exact (flag_finds on.alike (hm.later on.left) Attribute.virtualMethod).map
        fun isVirtual => if isVirtual then "virtual " else ""

theorem ownParameters_finds : m.ownParameters.Says s₁ s₂ (Look.ownParameters m.handle) := by
  refine Says.bind (Says.of_tells (.methodIsGeneric _) (isGeneric_agrees h hm) rfl)
    fun isGeneric t₁ t₂ on _ => ?_
  cases isGeneric with
  | true =>
      exact (Says.of_tells (.methodTypeParameterCount _)
        (typeParameterCount_agrees on.alike (hm.later on.left)) rfl).map
        fun count => genericName "" (parameterNames count)
  | false => exact .pure on.alike _

theorem token_finds : m.addressToken?.Says s₁ s₂ (Look.token? m.handle) := by
  refine (addressToken_agrees h hm).weaken (fun token? t _ htoken => ?_)
    fun hnone token? hfound => ?_
  · exact ⟨Look.finds_token?.mpr htoken, trivial⟩
  · obtain ⟨p, hp, _⟩ := Look.finds_token?.mp hfound
    exact hnone p hp

theorem place_finds : m.place.Says s₁ s₂ (Look.methodPlace m.handle) := by
  refine Says.bind (token_finds h hm) fun token? t₁ t₂ on _ => ?_
  cases token? with
  | some token => exact .pure on.alike _
  | none => exact .pure on.alike _

theorem parameters_finds : m.parameters.Finds s₁ s₂ (Look.parameters m.handle)
    (List.map parameterKey) fun ps t => ShowsFrom t 0 ps := by
  refine Finds.remember (f := .methodParameters) h hm.2 rfl (fun t ps => ?_)
    (Finds.bind (Says.of_tells (.methodParameterCount _) (Agree.tell h rfl rfl) rfl)
      fun count t₁ t₂ on _ => readParameters_finds m count 0 on.alike)
  unfold Look.parameters
  simp only [Look.finds_bind, Look.finds_parametersFrom, List.length_map,
    Nat.zero_add, List.getElem?_map, Option.map_eq_some_iff]
  constructor
  · rintro ⟨hcount, hall⟩
    refine ⟨⟨ps.length, hcount, rfl, ?_⟩, fun k p hp => ?_⟩
    · rintro k _ ⟨p, hp, rfl⟩
      have hp := hall k p hp
      exact ⟨hp.name, hp.type.2, hp.type.1.1⟩
    · rw [Nat.zero_add]
      exact ⟨(hall k p hp).position, (hall k p hp).type.1⟩
  · rintro ⟨⟨count, hcount, rfl, hall⟩, hshows⟩
    refine ⟨hcount, fun k p hp => ?_⟩
    obtain ⟨hname, htype, _⟩ := hall k _ ⟨p, hp, rfl⟩
    obtain ⟨hposition, hshows⟩ := hshows k p hp
    exact ⟨by rw [hposition, Nat.zero_add], hname, hshows, htype⟩

theorem declaration_finds : m.declaration.Says s₁ s₂ (Look.methodDeclaration m.handle) := by
  refine Says.bind (flag_finds h hm Attribute.staticMethod) fun _ t₁ t₂ on _ => ?_
  have hlater := on.left
  refine Says.bind (dispatch_finds on.alike (hm.later hlater)) fun _ u₁ u₂ on _ => ?_
  have hlater := hlater.trans on.left
  refine Says.bind (Sees.of_showsAt (.methodReturnType _)
    (returnType_agrees on.alike (hm.later hlater)) rfl) fun type v₁ v₂ on htype => ?_
  have hlater := hlater.trans on.left
  refine Says.bind (Says.of_tells (.typeName _) (TypeView.name_agrees on.alike htype) rfl)
    fun _ w₁ w₂ on _ => ?_
  have hlater := hlater.trans on.left
  refine Says.bind (Says.of_tells (.methodName _) (name_agrees on.alike (hm.later hlater)) rfl)
    fun _ x₁ x₂ on _ => ?_
  have hlater := hlater.trans on.left
  refine Says.bind (ownParameters_finds on.alike (hm.later hlater)) fun _ y₁ y₂ on _ => ?_
  have hlater := hlater.trans on.left
  refine Says.bind (parameters_finds on.alike (hm.later hlater)) fun ps z₁ z₂ on hps => ?_
  have hlater := hlater.trans on.left
  refine Says.bind (Finds.mapM (G := fun s (p : Parameter) => s.Shows p.type)
    (fun hst hp => hp.later hst) on.alike (fun p hp => ?_)
    fun p _ _ halike hp => p.text_finds halike hp) fun _ a₁ a₂ on _ => ?_
  · obtain ⟨k, hk⟩ := List.mem_iff_getElem?.mp hp
    exact (hps k p hk).2
  have hlater := hlater.trans on.left
  exact Says.bind (place_finds on.alike (hm.later hlater)) fun _ _ _ on _ => .pure on.alike _

end Method

/-! ## Classes -/

namespace Look

/-- The kind follows from what the machine says about the class. -/
theorem finds_kind {s : Session} {c : Handle} {kind : ClassKind} :
    (Look.kind c).Finds s.vm kind ↔ s.TellsKind c kind := by
  unfold Look.kind
  rw [finds_bind]
  constructor
  · rintro ⟨isInterface, hi, h⟩
    cases isInterface with
    | true =>
        cases finds_pure.mp h
        exact hi
    | false =>
        obtain ⟨isEnum, he, h⟩ := finds_bind.mp h
        cases isEnum with
        | true =>
            cases finds_pure.mp h
            exact ⟨hi, he⟩
        | false =>
            obtain ⟨isValueType, hv, h⟩ := finds_bind.mp h
            cases isValueType <;> cases finds_pure.mp h <;> exact ⟨hi, he, hv⟩
  · intro h
    cases kind with
    | interface => exact ⟨true, h, finds_pure.mpr rfl⟩
    | enum => exact ⟨false, h.1, finds_bind.mpr ⟨true, h.2, finds_pure.mpr rfl⟩⟩
    | struct =>
        exact ⟨false, h.1, finds_bind.mpr ⟨false, h.2.1, finds_bind.mpr
          ⟨true, h.2.2, finds_pure.mpr rfl⟩⟩⟩
    | class_ =>
        exact ⟨false, h.1, finds_bind.mpr ⟨false, h.2.1, finds_bind.mpr
          ⟨false, h.2.2, finds_pure.mpr rfl⟩⟩⟩

end Look

namespace Class

variable (h : s₁.Alike s₂) {c : Class} (hc : s₁.Shows c)
include h hc

theorem flag_finds (bit : UInt32) :
    Says (do pure ((← c.flags) &&& bit != 0)) s₁ s₂ (Look.classFlag c.handle bit) :=
  (Says.of_tells (.classFlags _) (flags_agrees h hc) rfl).map (· &&& bit != 0)

theorem kind_finds : c.kind.Says s₁ s₂ (Look.kind c.handle) := by
  refine Finds.remember (f := .classKind) h hc.2 rfl
    (fun t kind => ?_) ?_
  · rw [id_eq, Look.finds_kind, and_true]
    rfl
  refine Says.bind (Says.of_tells (.classIsInterface _) (Agree.tell h rfl rfl) rfl)
    fun isInterface t₁ t₂ on _ => ?_
  cases isInterface with
  | true => exact .pure on.alike _
  | false =>
      refine Says.bind (Says.of_tells (.classIsEnum _) (Agree.tell on.alike rfl rfl) rfl)
        fun isEnum u₁ u₂ on' _ => ?_
      cases isEnum with
      | true => exact .pure on'.alike _
      | false =>
          refine Says.bind (Says.of_tells (.classIsValueType _) (Agree.tell on'.alike rfl rfl) rfl)
            fun isValueType v₁ v₂ on'' _ => ?_
          cases isValueType <;> exact .pure on''.alike _

theorem typeName_finds : c.typeName.Says s₁ s₂ (Look.className c.handle) :=
  Says.bind (Sees.of_showsAt (.classType _) (type_agrees h hc) rfl) fun _ _ _ on ht =>
    .of_tells (.typeName _) (TypeView.name_agrees on.alike ht) rfl

theorem modifierText_finds (kind : ClassKind) :
    (c.modifierText kind).Says s₁ s₂ (Look.modifierText c.handle kind) := by
  unfold modifierText Look.modifierText
  split
  · refine Says.bind (flag_finds h hc Attribute.abstractClass) fun isAbstract t₁ t₂ on _ => ?_
    exact (flag_finds on.alike (hc.later on.left) Attribute.sealedClass).map
      fun isSealed => modifiers isAbstract isSealed
  · exact .pure h _

theorem parentName_finds (kind : ClassKind) :
    (c.parentName kind).Says s₁ s₂ (Look.parentName c.handle kind) := by
  refine Says.bind (SeesAny.of_showsAny (.classParent _) (parent_agrees h hc) rfl)
    fun p? t₁ t₂ on hp => ?_
  cases p? with
  | none => exact .pure on.alike _
  | some p =>
      have hp := hp p rfl
      have hnull : ((some p).map View.handle).getD .null = p.handle := rfl
      rw [hnull, Handle.nonNull?, if_neg fun hn => hp.1 (Handle.isNull_iff.mp hn)]
      simp only []
      split
      · exact (typeName_finds on.alike hp).map
          fun name => if name = "System.Object" then [] else [name]
      · exact .pure on.alike _

theorem inherited_finds (kind : ClassKind) :
    (c.inherited kind).Says s₁ s₂ (Look.inherited c.handle kind) := by
  refine Says.bind (parentName_finds h hc kind) fun _ t₁ t₂ on _ => ?_
  refine Says.bind (SeesAll.of_showsAll (.classInterfaces _)
    (interfaces_agrees on.alike (hc.later on.left)) rfl) fun is u₁ u₂ on' his => ?_
  exact Says.bind (Finds.mapM (G := fun s (i : Class) => s.Shows i)
    (fun hst hi => hi.later hst) on'.alike his fun i _ _ halike hi => typeName_finds halike hi)
    fun _ _ _ on'' _ => .pure on''.alike _

/-- A class is declared in the words that can be looked up. -/
theorem declaration_finds : c.declaration.Says s₁ s₂ (Look.classDeclaration c.handle) := by
  refine Says.bind (kind_finds h hc) fun kind t₁ t₂ on _ => ?_
  have hlater := on.left
  refine Says.bind (Sees.of_showsAt (.classImage _) (image_agrees on.alike (hc.later hlater)) rfl)
    fun image u₁ u₂ on himage => ?_
  have hlater := hlater.trans on.left
  refine Says.bind (Says.of_tells (.imageName _) (Image.name_agrees on.alike himage) rfl)
    fun _ v₁ v₂ on _ => ?_
  have hlater := hlater.trans on.left
  refine Says.bind (modifierText_finds on.alike (hc.later hlater) kind) fun _ w₁ w₂ on _ => ?_
  have hlater := hlater.trans on.left
  refine Says.bind (typeName_finds on.alike (hc.later hlater)) fun _ x₁ x₂ on _ => ?_
  have hlater := hlater.trans on.left
  refine Says.bind (inherited_finds on.alike (hc.later hlater) kind) fun _ y₁ y₂ on _ => ?_
  have hlater := hlater.trans on.left
  refine Says.bind (SeesAll.of_showsAll (.classFields _)
    (fields_agrees on.alike (hc.later hlater)) rfl) fun fs z₁ z₂ on hfs => ?_
  have hlater := hlater.trans on.left
  refine Says.bind (Finds.mapM (G := fun s (f : Field) => s.Shows f) (fun hst hf => hf.later hst)
    on.alike hfs fun f _ _ halike hf => Field.declaration_finds halike hf) fun _ a₁ a₂ on _ => ?_
  have hlater := hlater.trans on.left
  refine Says.bind (SeesAll.of_showsAll (.classMethods _)
    (methods_agrees on.alike (hc.later hlater)) rfl) fun ms b₁ b₂ on hms => ?_
  exact Says.bind (Finds.mapM (G := fun s (m : Method) => s.Shows m) (fun hst hm => hm.later hst)
    on.alike hms fun m _ _ halike hm => Method.declaration_finds halike hm) fun _ _ _ on _ =>
    .pure on.alike _

end Class

end VmMetadata

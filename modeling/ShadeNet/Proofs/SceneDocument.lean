/-
# Scenes are read back

The data of a scene nest ten kinds of structures, and each of them keeps its value if the values of
its fields are kept: all fields are there and are found again by their names. A tree is kept as the
list of its nodes and is made again by adding them under their names; its links keep their
identities, since these are read back and none of them is given anew. All that is asked of the
format of documents and of the spelling of identities is that they read back what they write.

Key definitions: `Uuid.ReadsBack`, `Link.loosen`, `Scene.hasNaN`.
Key theorems: `LinkId.uuid_readsBack`, `keeps_value`, `keeps_node`, `keeps_tree`, `keeps_scene`,
`scene_read_back`.
-/
import ShadeNet.Document.Scene
import ShadeNet.Export
import ShadeNet.Proofs.ReadItem
import ShadeNet.Proofs.Upstream

namespace ShadeNet

/-! ### Identities of links -/

/-- A spelling of identities that reads back what it writes. -/
def Uuid.ReadsBack (uuid : Uuid) : Prop := ∀ id, uuid.ofText? (uuid.text id) = some id

namespace LinkId

open Document

theorem length_hyphenate (sizes : List Nat) (digits : List Char) :
    (hyphenate sizes digits).length = digits.length + (sizes.length - 1) := by
  fun_induction hyphenate sizes digits with
  | case1 => rfl
  | case2 => rfl
  | case3 n m sizes digits ih =>
    simp only [List.length_append, List.length_cons, List.length_take, ih, List.length_drop] at *
    omega

/-- Groups with hyphens between them are put together again. -/
theorem unhyphenate?_hyphenate {sizes : List Nat} {digits : List Char}
    (h : digits.length = sizes.sum) :
    unhyphenate? sizes (hyphenate sizes digits) = some digits := by
  fun_induction hyphenate sizes digits with
  | case1 digits =>
    rw [List.eq_nil_of_length_eq_zero h]
    rfl
  | case2 n digits => exact if_pos (by simpa using h)
  | case3 n m sizes digits ih =>
    have hle : n ≤ digits.length := by
      rw [h, List.sum_cons]
      exact Nat.le_add_right _ _
    have htake : (digits.take n).length = n := List.length_take_of_le hle
    have hrest := ih (by rw [List.length_drop, h, List.sum_cons, Nat.add_sub_cancel_left])
    simp [unhyphenate?, List.take_left' htake, List.drop_left' htake, hrest]

/-- Every identity is read back. -/
theorem ofText?_text (id : LinkId) : ofText? id.text = some id := by
  have hwidth : (Nat.toDigits 16 id.bits.toNat).length ≤ 32 := by
    refine (Nat.length_toDigits_le_iff (by decide) (by decide)).mpr ?_
    exact Nat.lt_of_lt_of_eq id.bits.isLt (by norm_num)
  have hlength : (List.leftpad 32 '0' (Nat.toDigits 16 id.bits.toNat)).length = groupSizes.sum := by
    rw [List.length_leftpad, Nat.max_eq_left hwidth]
    rfl
  have hdigits := unhyphenate?_hyphenate hlength
  have hvalue := natOfDigits?_leftpad (by decide : 1 < 16) (by decide) 32 id.bits.toNat
  have htext : (hyphenate groupSizes (List.leftpad 32 '0' (Nat.toDigits 16 id.bits.toNat))).length =
      36 := by
    rw [length_hyphenate, hlength]
    rfl
  have hunwrap :
      unwrap (hyphenate groupSizes (List.leftpad 32 '0' (Nat.toDigits 16 id.bits.toNat))) =
        hyphenate groupSizes (List.leftpad 32 '0' (Nat.toDigits 16 id.bits.toNat)) := by
    rw [unwrap, htext, if_neg (by omega), if_neg (by omega)]
  rw [ofText?, text]
  simp only [String.toList_ofList, htext, hunwrap, hdigits, hvalue, Option.bind_eq_bind,
    Option.bind_some]
  simp

theorem uuid_readsBack : uuid.ReadsBack := by
  intro id
  simp only [uuid, ofText?_text]

end LinkId

/-- A link with its identity. -/
def Link.loosen (l : Link) : LooseLink := ⟨some l.id, l.source, l.target⟩

/-- Links keep the identities that they have. -/
theorem identify_loosen (used : List LinkId) (links : List Link) :
    identify used (links.map Link.loosen) = links := by
  induction links with
  | nil => rfl
  | cons l links ih => simp [identify, Link.loosen, ih]

/-- A tree whose nodes stand under their own names is made again of its parts. -/
theorem NodeTree.Keyed.ofParts {t : NodeTree} (h : t.Keyed) :
    NodeTree.ofParts t.name t.nodes.values t.links = t := by
  have hentries : t.nodes.values.map (fun n => (n.name, n)) = t.nodes.entries := by
    rw [OrderedMap.values, List.map_map]
    calc t.nodes.entries.map ((fun n => (n.name, n)) ∘ Prod.snd)
        = t.nodes.entries.map id := List.map_congr_left fun e he => Prod.ext (h e he) rfl
      _ = t.nodes.entries := List.map_id _
  rw [NodeTree.ofParts, hentries, OrderedMap.ofList_entries]

/-! ### Numbers that are none -/

/-- Whether one of the numbers is none. -/
def Triple.hasNaN (t : Triple) : Bool := t.x.isNaN || t.y.isNaN || t.z.isNaN

/-- Whether one of the numbers is none. -/
def Transform.hasNaN (t : Transform) : Bool :=
  t.x.hasNaN || t.y.hasNaN || t.z.hasNaN || t.offset.hasNaN

/-- Whether one of the numbers of a literal is none. -/
def Value.hasNaN : Value → Bool
  | .float v => v.isNaN
  | .color c => c.hasNaN
  | .aColor c a => c.hasNaN || a.isNaN
  | .vector v => v.hasNaN
  | .transform t => t.hasNaN
  | .bool _ | .int _ | .enum _ | .string _ | .path _ => false

/-- Whether a node has a number that is none. -/
def Node.hasNaN (n : Node) : Bool :=
  n.sockets.any (fun s => s.literal.any Value.hasNaN) || n.params.values.any Value.hasNaN

/-- Whether a scene has a number that is none. -/
def Scene.hasNaN (s : Scene) : Bool :=
  s.trees.values.any (fun t => t.nodes.values.any Node.hasNaN) ||
    s.objects.values.any fun o => o.transform.hasNaN

namespace Document

/-! ### Literals -/

/-- A row has members, each of its shape. -/
theorem fits_tuple {shapes : List Shape} {values : List Data} (hne : values ≠ [])
    (h : List.Forall₂ Shape.Fits shapes values) : (Shape.tuple shapes).Fits (.tuple values) :=
  .tuple hne h.length_eq fun _ hpair => List.forall₂_zip h hpair

theorem keeps_triple {t : Triple} (h : t.hasNaN = false) :
    Keeps Triple.shape Triple.ofData? t.toData t := by
  simp only [Triple.hasNaN, Bool.or_eq_false_iff] at h
  obtain ⟨⟨hx, hy⟩, hz⟩ := h
  refine ⟨fits_tuple (List.cons_ne_nil _ _) ?_, rfl⟩
  simp [Shape.Fits.single, hx, hy, hz]

theorem keeps_transform {t : Transform} (h : t.hasNaN = false) :
    Keeps Transform.shape Transform.ofData? t.toData t := by
  simp only [Transform.hasNaN, Bool.or_eq_false_iff] at h
  obtain ⟨⟨⟨hx, hy⟩, hz⟩, hoffset⟩ := h
  refine ⟨fits_tuple (List.cons_ne_nil _ _) ?_, rfl⟩
  simp [(keeps_triple hx).fits, (keeps_triple hy).fits, (keeps_triple hz).fits,
    (keeps_triple hoffset).fits]

/-- A literal of a value, which stands behind the name of its kind. -/
theorem keeps_literal {α : Type} {shape : Shape} {make : Data → Option α} {data : Data} {a : α}
    {literal : α → Value} {name : String} (h : Keeps shape make data a)
    (hmem : (name, .value shape) ∈ Value.variants)
    (hmake : Value.ofData? (.variantOf name data) = (make data).map literal) :
    Keeps Value.shape Value.ofData? (.variantOf name data) (literal a) :=
  ⟨.variantOf (by decide) hmem h.fits, by rw [hmake, h.makes, Option.map_some]⟩

/-- A literal keeps its kind and its content. -/
theorem keeps_value {v : Value} (h : v.hasNaN = false) :
    Keeps Value.shape Value.ofData? v.toData v := by
  cases v with
  | bool b => exact keeps_literal (keeps_bool b) (by simp [Value.variants]) rfl
  | int i => exact keeps_literal (keeps_int i) (by simp [Value.variants]) rfl
  | enum i => exact keeps_literal (keeps_int i) (by simp [Value.variants]) rfl
  | float x => exact keeps_literal (keeps_single h) (by simp [Value.variants]) rfl
  | color c => exact keeps_literal (keeps_triple h) (by simp [Value.variants]) rfl
  | aColor c a =>
    obtain ⟨hc, ha⟩ := Bool.or_eq_false_iff.mp h
    simp only [Triple.hasNaN, Bool.or_eq_false_iff] at hc
    obtain ⟨⟨hx, hy⟩, hz⟩ := hc
    have hrow : (Shape.tuple [.single, .single, .single, .single]).Fits
        (.tuple [.single c.x, .single c.y, .single c.z, .single a]) := by
      refine fits_tuple (List.cons_ne_nil _ _) ?_
      simp [Shape.Fits.single, hx, hy, hz, ha]
    exact ⟨.variantOf (by decide) (by simp [Value.variants]) hrow, rfl⟩
  | vector v => exact keeps_literal (keeps_triple h) (by simp [Value.variants]) rfl
  | transform t => exact keeps_literal (keeps_transform h) (by simp [Value.variants]) rfl
  | string s => exact keeps_literal (keeps_text s) (by simp [Value.variants]) rfl
  | path s => exact keeps_literal (keeps_text s) (by simp [Value.variants]) rfl

/-! ### Sockets and kinds -/

theorem keeps_direction (d : Direction) : Keeps (.names (Direction.all.map Direction.name))
    (Data.choice? Direction.all Direction.name) (.variant d.name) d := by
  cases d <;> exact keeps_choice (by decide) (by decide) (by decide)

theorem keeps_socketType (t : SocketType) : Keeps (.names (SocketType.all.map SocketType.name))
    (Data.choice? SocketType.all SocketType.name) (.variant t.name) t := by
  cases t <;> exact keeps_choice (by decide) (by decide) (by decide)

theorem keeps_category (c : Category) : Keeps Category.shape Category.ofData? c.toData c := by
  cases c <;> exact keeps_choice (by decide) (by decide) (by decide)

theorem keeps_socket {s : Socket} (h : s.literal.any Value.hasNaN = false) :
    Keeps Socket.shape Socket.ofData? s.toData s := by
  have hdirection := keeps_direction s.direction
  have htype := keeps_socketType s.type
  have hattr := keeps_optionText s.attr
  have hliteral : Keeps (.option Value.shape) (Data.option? Value.ofData?)
      (.ofOption Value.toData s.literal) s.literal := by
    refine Keeps.option fun v hv => keeps_value ?_
    rw [hv] at h
    exact h
  refine Keeps.struct (by decide) (by decide) ?_ ?_
  · simp [FitEach, Shape.Fits.text, hdirection.fits, htype.fits, hattr.fits, hliteral.fits]
  · simp [Socket.ofData?, Data.fields?, Fields.get, Fields.getOr, OrderedMap.lookupEntry, Data.text?,
      hdirection.makes, htype.makes, hattr.makes, hliteral.makes]

/-- A kind without fields goes by its name. -/
theorem keeps_kindName {name : String} {k : NodeKind} (hmem : (name, .nothing) ∈ NodeKind.variants)
    (hmake : NodeKind.ofName? name = some k) :
    Keeps NodeKind.shape NodeKind.ofData? (.variant name) k :=
  ⟨.variant (by decide) hmem, hmake⟩

/-- A kind with fields has them behind its name. -/
theorem keeps_kindFields {name : String} (known : List (String × Shape)) {fields : Fields}
    {k : NodeKind} (hmem : (name, .fields known) ∈ NodeKind.variants)
    (hnames : areNames (known.map Prod.fst) = true) (h : FitEach known fields)
    (hmake : NodeKind.ofFields? name fields = some k) :
    Keeps NodeKind.shape NodeKind.ofData? (.variantWith name fields) k := by
  obtain ⟨hfields, hfits⟩ := fits_fields hnames h
  exact ⟨.variantWith (by decide) hmem hfields hfits, hmake⟩

theorem keeps_kind (k : NodeKind) : Keeps NodeKind.shape NodeKind.ofData? k.toData k := by
  cases k with
  | plugin category id =>
    have hcategory := keeps_category category
    refine keeps_kindFields [("category", Category.shape), ("plugin", .text)]
      (by simp [NodeKind.variants]) (by decide) ?_ ?_
    · simp [FitEach, hcategory.fits, Shape.Fits.text]
    · simp [NodeKind.ofFields?, Fields.get, OrderedMap.lookupEntry, hcategory.makes, Data.text?]
  | unset => exact keeps_kindName (by simp [NodeKind.variants]) rfl
  | layeredTexture => exact keeps_kindName (by simp [NodeKind.variants]) rfl
  | layeredBrdf additive =>
    exact keeps_kindFields [("additive_mode", .bool)] (by simp [NodeKind.variants]) (by decide)
      (by simp [FitEach, Shape.Fits.bool]) rfl
  | selectObject object =>
    have hobject := keeps_optionText object
    refine keeps_kindFields [("object", .option .text)] (by simp [NodeKind.variants]) (by decide)
      (by simp [FitEach, hobject.fits]) ?_
    simp [NodeKind.ofFields?, Fields.getOr, OrderedMap.lookupEntry, hobject.makes]
  | selectGroup group =>
    have hgroup := keeps_optionText group
    refine keeps_kindFields [("group", .option .text)] (by simp [NodeKind.variants]) (by decide)
      (by simp [FitEach, hgroup.fits]) ?_
    simp [NodeKind.ofFields?, Fields.getOr, OrderedMap.lookupEntry, hgroup.makes]
  | objectGeometry => exact keeps_kindName (by simp [NodeKind.variants]) rfl
  | objectMaterial => exact keeps_kindName (by simp [NodeKind.variants]) rfl
  | materialOutput dontOverride =>
    exact keeps_kindFields [("dont_override", .bool)] (by simp [NodeKind.variants]) (by decide)
      (by simp [FitEach, Shape.Fits.bool]) rfl
  | objectOutput => exact keeps_kindName (by simp [NodeKind.variants]) rfl

/-! ### Nodes, links and trees -/

theorem keeps_node {n : Node} (h : n.hasNaN = false) : Keeps Node.shape Node.ofData? n.toData n := by
  obtain ⟨hsockets, hparams⟩ := Bool.or_eq_false_iff.mp h
  have hsocket : ∀ s ∈ n.sockets, Keeps Socket.shape Socket.ofData? s.toData s := fun s hs =>
    keeps_socket (by simpa using List.any_eq_false.mp hsockets s hs)
  have hkind := keeps_kind n.kind
  have hinputs := Keeps.list fun s hs => hsocket s (List.mem_append_left n.outputs hs)
  have houtputs := Keeps.list fun s hs => hsocket s (List.mem_append_right n.inputs hs)
  have hvalues : Keeps (.map Value.shape) (Data.map? Value.ofData?) (.ofMap Value.toData n.params)
      n.params :=
    Keeps.map fun v hv => keeps_value (by simpa using List.any_eq_false.mp hparams v hv)
  refine Keeps.struct (by decide) (by decide) ?_ ?_
  · simp [FitEach, Shape.Fits.text, hkind.fits, hinputs.fits, houtputs.fits, hvalues.fits]
  · simp [Node.ofData?, Data.fields?, Fields.get, Fields.getOr, OrderedMap.lookupEntry, Data.text?,
      hkind.makes, hinputs.makes, houtputs.makes, hvalues.makes]

variable {uuid : Uuid} (huuid : uuid.ReadsBack)

include huuid

theorem keeps_linkId (id : LinkId) :
    Keeps (.wrapped "LinkId" .text) (LinkId.ofData? uuid)
      (.wrapped "LinkId" (.text (uuid.text id))) id :=
  ⟨.wrapped (by decide) (.text _), huuid id⟩

theorem keeps_link (l : Link) :
    Keeps Link.shape (LooseLink.ofData? uuid) (l.toData uuid) l.loosen := by
  have hid := keeps_linkId huuid l.id
  refine Keeps.struct (by decide) (by decide) ?_ ?_
  · simp [FitEach, Shape.Fits.text, hid.fits]
  · simp [LooseLink.ofData?, Data.fields?, Fields.get, Fields.getOr, OrderedMap.lookupEntry,
      Data.text?, hid.makes, Link.loosen]

theorem keeps_tree {t : NodeTree} (hnan : t.nodes.values.any Node.hasNaN = false)
    (hkeyed : t.Keyed) : Keeps NodeTree.shape (NodeTree.ofData? uuid) (t.toData uuid) t := by
  have hnodes : Keeps (.list Node.shape) (Data.list? Node.ofData?)
      (.ofList Node.toData t.nodes.values) t.nodes.values :=
    Keeps.list fun n hn => keeps_node (by simpa using List.any_eq_false.mp hnan n hn)
  have hlinks : Keeps (.list Link.shape) (Data.list? (LooseLink.ofData? uuid))
      (.ofList (Link.toData uuid) t.links) (t.links.map Link.loosen) :=
    Keeps.listMap fun l _ => keeps_link huuid l
  refine Keeps.struct (by decide) (by decide) ?_ ?_
  · simp [FitEach, Shape.Fits.text, hnodes.fits, hlinks.fits]
  · simp [NodeTree.ofData?, Data.fields?, Fields.get, Fields.getOr, OrderedMap.lookupEntry,
      Data.text?, hnodes.makes, hlinks.makes, identify_loosen, hkeyed.ofParts]

omit huuid

/-! ### Scenes -/

theorem keeps_material (m : Material) : Keeps Material.shape Material.ofData? m.toData m := by
  have htree := keeps_optionText m.tree
  refine Keeps.struct (by decide) (by decide) ?_ ?_
  · simp [FitEach, htree.fits]
  · simp [Material.ofData?, Data.fields?, Fields.getOr, OrderedMap.lookupEntry, htree.makes]

theorem keeps_object {o : SceneObject} (h : o.transform.hasNaN = false) :
    Keeps SceneObject.shape SceneObject.ofData? o.toData o := by
  have hmesh := keeps_optionText o.mesh
  have hslots : Keeps (.list (.option .text)) (Data.list? (Data.option? Data.text?))
      (.ofList (.ofOption .text) o.slots) o.slots :=
    Keeps.list fun slot _ => keeps_optionText slot
  have htree := keeps_optionText o.tree
  have htransform := keeps_transform h
  refine Keeps.struct (by decide) (by decide) ?_ ?_
  · simp [FitEach, Shape.Fits.bool, hmesh.fits, hslots.fits, htree.fits, htransform.fits]
  · simp [SceneObject.ofData?, Data.fields?, Fields.getOr, OrderedMap.lookupEntry, Data.bool?,
      hmesh.makes, hslots.makes, htree.makes, htransform.makes]

theorem keeps_group (g : Group) : Keeps Group.shape Group.ofData? g.toData g := by
  have hobjects : Keeps (.list .text) (Data.list? Data.text?) (.ofList .text g.objects) g.objects :=
    Keeps.list fun object _ => keeps_text object
  refine Keeps.struct (by decide) (by decide) ?_ ?_
  · simp [FitEach, hobjects.fits]
  · simp [Group.ofData?, Data.fields?, Fields.get, OrderedMap.lookupEntry, hobjects.makes]

include huuid

theorem keeps_scene {s : Scene} (hnan : s.hasNaN = false) (hkeyed : ∀ t ∈ s.trees.values, t.Keyed) :
    Keeps Scene.shape (Scene.ofData? uuid) (s.toData uuid) s := by
  obtain ⟨htreeNumbers, hobjectNumbers⟩ := Bool.or_eq_false_iff.mp hnan
  have htrees : Keeps (.map NodeTree.shape) (Data.map? (NodeTree.ofData? uuid))
      (.ofMap (NodeTree.toData uuid) s.trees) s.trees :=
    Keeps.map fun t ht =>
      keeps_tree huuid (by simpa using List.any_eq_false.mp htreeNumbers t ht) (hkeyed t ht)
  have hmaterials : Keeps (.map Material.shape) (Data.map? Material.ofData?)
      (.ofMap Material.toData s.materials) s.materials :=
    Keeps.map fun m _ => keeps_material m
  have hobjects : Keeps (.map SceneObject.shape) (Data.map? SceneObject.ofData?)
      (.ofMap SceneObject.toData s.objects) s.objects :=
    Keeps.map fun o ho => keeps_object (by simpa using List.any_eq_false.mp hobjectNumbers o ho)
  have hgroups : Keeps (.map Group.shape) (Data.map? Group.ofData?)
      (.ofMap Group.toData s.groups) s.groups :=
    Keeps.map fun g _ => keeps_group g
  refine Keeps.struct (by decide) (by decide) ?_ ?_
  · simp [FitEach, Shape.Fits.text, htrees.fits, hmaterials.fits, hobjects.fits, hgroups.fits]
  · simp [Scene.ofData?, Data.fields?, Fields.get, Fields.getOr, OrderedMap.lookupEntry, Data.text?,
      htrees.makes, hmaterials.makes, hobjects.makes, hgroups.makes]

end Document

/-- **Scenes are read back.** What a scene is written as is read as the scene, and so is every
document that stands for its data: with all maps in their order, the nodes of every tree under
their names and the links with their identities and ends. So what is read is exported as the scene
is. -/
theorem scene_read_back {ron : Document.Ron} {uuid : Uuid} (hron : ron.ReadsBack)
    (huuid : uuid.ReadsBack) {s : Scene} (hnan : s.hasNaN = false)
    (hkeyed : ∀ t ∈ s.trees.values, t.Keyed) :
    (∀ named, Scene.read? ron uuid (s.write ron uuid named) = some s) ∧
      ∀ document, ron.read? Scene.shape document = some (s.toData uuid) →
        Scene.read? ron uuid document = some s ∧
        ∀ loaded, Scene.read? ron uuid document = some loaded →
          ∀ catalog settings outside frames,
            Job.exportFrames ⟨loaded, catalog, settings⟩ outside frames =
              Job.exportFrames ⟨s, catalog, settings⟩ outside frames := by
  obtain ⟨hfits, hmakes⟩ := Document.keeps_scene huuid hnan hkeyed
  have hread : ∀ document, ron.read? Scene.shape document = some (s.toData uuid) →
      Scene.read? ron uuid document = some s := by
    intro document hdocument
    rw [Scene.read?, hdocument, Option.bind_some, hmakes]
  refine ⟨fun named => hread _ (hron named Scene.shape _ (by decide) hfits),
    fun document hdocument => ⟨hread document hdocument, ?_⟩⟩
  intro loaded hloaded catalog settings outside frames
  rw [hread document hdocument] at hloaded
  cases hloaded
  rfl

/-- A tree with a node of each kind, literals of each kind, links that lead nowhere and a link
that is there twice. Its name is not the one that it is found by. -/
def jetty : NodeTree :=
  .ofParts "Some(\"Jetty\")"
    [{ name := "r#Film", kind := .plugin .material "MtlSingleBRDF",
       inputs := [⟨"Map", .input, .texture, some "map", some (.color ⟨⟨1⟩, .zero true, .one⟩)⟩,
         ⟨"Back", .output, .any, none, some (.aColor ⟨.one, .one, .one⟩ (.infinity true))⟩],
       params := ⟨[("dir", .vector ⟨.infinity false, .one, ⟨0x7F7FFFFF⟩⟩), ("", .int (-2147483648)),
         ("path", .path "C:\\\x00"), ("text", .string "\u0301\n// \"")], by decide⟩ },
     { name := "", kind := .unset,
       outputs := [⟨"", .input, .transform, some "", some (.transform .identity)⟩] },
     { name := "Mix", kind := .layeredTexture, params := ⟨[("on", .bool true), ("mode", .enum 3),
         ("gain", .float ⟨0x3DCCCCCD⟩)], by decide⟩ },
     { name := "Sum", kind := .layeredBrdf true },
     { name := "One", kind := .selectObject none },
     { name := "Other", kind := .selectObject (some "Gone") },
     { name := "All", kind := .selectGroup (some "Boats") },
     { name := "Mesh", kind := .objectGeometry },
     { name := "Material", kind := .objectMaterial },
     { name := "End", kind := .materialOutput true },
     { name := "Object", kind := .objectOutput }]
    [⟨⟨7⟩, ⟨"Mix", "Out"⟩, ⟨"End", "Material"⟩⟩, ⟨⟨7⟩, ⟨"Mix", "Out"⟩, ⟨"End", "Material"⟩⟩,
      ⟨⟨BitVec.allOnes 128⟩, ⟨"Gone", ""⟩, ⟨"\"", "None"⟩⟩]

/-- A scene with a hidden object, empty slots and names that lead nowhere. -/
def harbour : Scene where
  name := "(name: None)"
  trees := ⟨[("Jetty", jetty), ("Empty", {})], by decide⟩
  materials := ⟨[("Rust", ⟨some "Jetty"⟩), ("Lost", ⟨some "Gone"⟩), ("Bare", ⟨none⟩)], by decide⟩
  objects := ⟨[("Buoy", ⟨some "Buoy", [none, some "Rust", some "Gone"], none, .identity, false⟩),
    ("Rope", { tree := some "Jetty" })], by decide⟩
  groups := ⟨[("Boats", ⟨["Rope", "Gone", "Rope"]⟩), ("None", ⟨[]⟩)], by decide⟩

theorem scene_read_back_harbour :
    harbour.hasNaN = false ∧ (∀ t ∈ harbour.trees.values, t.Keyed) ∧
      Document.ron.ReadsBack ∧ LinkId.uuid.ReadsBack ∧
      Scene.read? Document.ron LinkId.uuid (harbour.write Document.ron LinkId.uuid false) =
        some harbour := by
  have hnan : harbour.hasNaN = false := by decide +kernel
  have hkeyed : ∀ t ∈ harbour.trees.values, t.Keyed := by
    intro t ht
    have hcases : t = jetty ∨ t = {} := by simpa [harbour, OrderedMap.values] using ht
    rcases hcases with rfl | rfl
    · exact NodeTree.keyed_ofParts _ _ _
    · intro e he
      cases he
  exact ⟨hnan, hkeyed, Document.ron_follows.readsBack, LinkId.uuid_readsBack,
    (scene_read_back Document.ron_follows.readsBack LinkId.uuid_readsBack hnan hkeyed).1 false⟩

end ShadeNet

import Syntra.Bench.Varredura

/-!
# What the bench reports is so

The chunkers cut every buffer whole, so the second version put together again is the second
version, and the counts of the report are those of the sets of distinct chunks.
-/

set_option autoImplicit false

namespace Syntra

namespace Bench

open Interned Tiling

/-! ## The chunkers -/

/-- The sizes for which the chunkers are made: a quarter of the target is not zero. -/
def Chunker.Valid : Chunker → Prop
  | .fixo alvo => 0 < alvo
  | .cdc alvo => 4 ≤ alvo

theorem Sorteio.cdc_valid (sorteio : Sorteio) {alvo : Nat} (large : 4 ≤ alvo) :
    (sorteio.cdc alvo).Valid where
  positive := Nat.div_pos large (by decide)
  wider := by
    show alvo / 4 < alvo * 8
    omega
  low := Nat.div_le_self alvo 4
  high := Nat.le_mul_of_pos_right alvo (by decide)

theorem tiles_fixo {alvo : Nat} (positive : 0 < alvo) {n : Nat} :
    Tiles 0 n ((List.range ((n + (alvo - 1)) / alvo)).map fun k =>
      (k * alvo, min alvo (n - k * alvo))) := by
  have covered : n ≤ (0 + (n + (alvo - 1)) / alvo) * alvo := by
    have above := Nat.lt_div_mul_add (a := n + (alvo - 1)) positive
    rw [Nat.zero_add]
    omega
  have inside : ∀ k < 0 + (n + (alvo - 1)) / alvo, k * alvo ≤ n := by
    intro k before
    rw [Nat.zero_add] at before
    have below := Nat.div_mul_le_self (n + (alvo - 1)) alvo
    have next : (k + 1) * alvo ≤ (n + (alvo - 1)) / alvo * alvo := Nat.mul_le_mul_right alvo before
    rw [Nat.succ_mul] at next
    omega
  have tiles := tiles_fixed covered inside
  rwa [Nat.zero_mul, Nat.zero_min, ← List.range_eq_range'] at tiles

theorem chunkear_tiles (sorteio : Sorteio) {cfg : Chunker} (valid : cfg.Valid) (buf : Bytes) :
    ∃ cortes, chunkear sorteio cfg buf = some cortes ∧ Tiles 0 buf.length cortes := by
  unfold chunkear
  dsimp only
  split
  · rename_i empty
    rw [empty]
    exact ⟨[], rfl, Tiles.nil 0⟩
  · cases cfg with
    | fixo alvo => exact ⟨_, rfl, tiles_fixo valid⟩
    | cdc alvo =>
        have proper := sorteio.cdc_valid valid
        dsimp only
        split
        · refine ⟨_, rfl, Tiles.cons _ ?_⟩
          rw [Nat.zero_add]
          exact Tiles.nil _
        · have enough : buf.length / (alvo / 4) < buf.length / (alvo / 4) + 2 := by omega
          obtain ⟨whole, run⟩ : ∃ whole, cortar (sorteio.cdc alvo) buf
              (buf.length / (alvo / 4) + 2) 0 [] = .ok (some whole) :=
            cortar_returns proper enough (Or.inl (by simp))
          obtain ⟨cortes, rfl, cut⟩ := cortar_chunks run
          rw [fastcdcCortar, run]
          exact ⟨_, rfl, (cut.tiles proper (Nat.zero_le _)).1⟩

/-! ## The chunks of the files -/

variable {F : Ferramentas} {fontes : Fontes}

def pedacos (F : Ferramentas) (fontes : Fontes) (ver : Versao) : List Bytes :=
  (fontes ver).flatMap fun f => ((F.cortar f.dados).getD []).map fun corte =>
    (f.dados.drop corte.1).take corte.2

/-- The chunks at hand have different hashes. -/
def SemColisao (F : Ferramentas) (fontes : Fontes) : Prop :=
  ∀ x ∈ pedacos F fontes .v1 ++ pedacos F fontes .v2,
    ∀ y ∈ pedacos F fontes .v1 ++ pedacos F fontes .v2, F.blake2b x = F.blake2b y → x = y

def CortaTudo (F : Ferramentas) : Prop :=
  ∀ dados cortes, F.cortar dados = some cortes → Tiles 0 dados.length cortes

theorem bytes_de_cortes (i : Nat) (dados : Bytes) (cortes : List (Nat × Nat)) :
    (cortes.map (ocorrencia i dados)).map Ocorrencia.bytes =
      cortes.map fun corte => (dados.drop corte.1).take corte.2 := by
  rw [List.map_map]
  rfl

theorem partes_existem (corta : ∀ dados, ∃ cortes, F.cortar dados = some cortes) (i : Nat)
    (fs : List Arquivo) : ∃ novas, partesDe F i fs = some novas := by
  induction fs generalizing i with
  | nil => exact ⟨[], rfl⟩
  | cons f fs ih =>
      obtain ⟨cortes, cortado⟩ := corta f.dados
      obtain ⟨novas, seguintes⟩ := ih (i + 1)
      refine ⟨cortes.map (ocorrencia i f.dados) :: novas, ?_⟩
      rw [partesDe, cortado, seguintes]
      rfl

theorem bytes_de_partes {i : Nat} {fs : List Arquivo} {novas : List (List Ocorrencia)}
    (cortados : partesDe F i fs = some novas) :
    novas.flatten.map Ocorrencia.bytes = fs.flatMap fun f =>
      ((F.cortar f.dados).getD []).map fun corte => (f.dados.drop corte.1).take corte.2 := by
  induction fs generalizing i novas with
  | nil =>
      cases cortados
      rfl
  | cons f fs ih =>
      obtain ⟨cortes, cortado, resto⟩ := Option.bind_eq_some_iff.mp cortados
      obtain ⟨outras, seguintes, rfl⟩ := Option.map_eq_some_iff.mp resto
      rw [List.flatten_cons, List.map_append, ih seguintes, bytes_de_cortes, List.flatMap_cons,
        cortado, Option.getD_some]

theorem partes_length {i : Nat} {fs : List Arquivo} {novas : List (List Ocorrencia)}
    (cortados : partesDe F i fs = some novas) : novas.length = fs.length := by
  induction fs generalizing i novas with
  | nil =>
      cases cortados
      rfl
  | cons f fs ih =>
      obtain ⟨cortes, cortado, resto⟩ := Option.bind_eq_some_iff.mp cortados
      obtain ⟨outras, seguintes, rfl⟩ := Option.map_eq_some_iff.mp resto
      rw [List.length_cons, List.length_cons, ih seguintes]

theorem parte_de {i j : Nat} {fs : List Arquivo} {novas : List (List Ocorrencia)} {f : Arquivo}
    (cortados : partesDe F i fs = some novas) (there : fs[j]? = some f) :
    ∃ cortes, F.cortar f.dados = some cortes ∧
      novas[j]? = some (cortes.map (ocorrencia (i + j) f.dados)) := by
  induction fs generalizing i j novas with
  | nil => cases there
  | cons g fs ih =>
      obtain ⟨cortes, cortado, resto⟩ := Option.bind_eq_some_iff.mp cortados
      obtain ⟨outras, seguintes, rfl⟩ := Option.map_eq_some_iff.mp resto
      cases j with
      | zero =>
          cases there
          exact ⟨cortes, cortado, rfl⟩
      | succ j =>
          have order : i + 1 + j = i + (j + 1) := by omega
          rw [← order]
          exact ih seguintes there

theorem conteudo_de {ver : Versao} {novas : List (List Ocorrencia)} {oc : Ocorrencia}
    (cortados : partesDe F 0 (fontes ver) = some novas) (member : oc ∈ novas.flatten) :
    conteudo fontes (oc.unico F ver) = some oc.bytes := by
  obtain ⟨parte, deParte, dela⟩ := List.mem_flatten.mp member
  obtain ⟨j, aqui⟩ := List.getElem?_of_mem deParte
  have inside : j < (fontes ver).length :=
    partes_length cortados ▸ (List.getElem?_eq_some_iff.mp aqui).1
  have there := List.getElem?_eq_getElem inside
  obtain ⟨cortes, -, igual⟩ := parte_de cortados there
  rw [aqui] at igual
  cases igual
  obtain ⟨corte, -, rfl⟩ := List.mem_map.mp dela
  rw [Nat.zero_add, conteudo]
  show ((fontes ver)[j]?).map _ = _
  rw [there]
  rfl

/-! ## The second version put together -/

variable {partes : Versao → List (List Ocorrencia)} {estado : Varredura}

/-- A known hash is that of a unique chunk, and its bytes are found. -/
theorem Lido.unico {u : Nat} {h : Bytes} (lido : Lido F partes estado)
    (cortados : ∀ ver, partesDe F 0 (fontes ver) = some (partes ver))
    (aqui : (chaves F fun ver => (partes ver).flatten)[u]? = some h) :
    ∃ x, F.blake2b x = h ∧ x ∈ pedacos F fontes .v1 ++ pedacos F fontes .v2 ∧
      estado.unicos[u]?.bind (conteudo fontes) = some x := by
  obtain ⟨ver, oc, member, igual, there, -⟩ := unico_de_chave aqui
  have dele : oc.bytes ∈ pedacos F fontes ver := by
    rw [pedacos, ← bytes_de_partes (cortados ver)]
    exact List.mem_map_of_mem member
  refine ⟨oc.bytes, igual, ?_, ?_⟩
  · cases ver with
    | v1 => exact List.mem_append_left _ dele
    | v2 => exact List.mem_append_right _ dele
  · rw [lido.resume.unicos, there]
    exact conteudo_de (cortados ver) member

theorem forall₂_imp_mem {R S : Nat → Ocorrencia → Prop} {us : List Nat} {ocs : List Ocorrencia}
    (each : List.Forall₂ R us ocs) (imp : ∀ u oc, oc ∈ ocs → R u oc → S u oc) :
    List.Forall₂ S us ocs := by
  induction each with
  | nil => exact List.Forall₂.nil
  | cons first rest ih =>
      refine List.Forall₂.cons (imp _ _ List.mem_cons_self first) (ih fun u oc member => ?_)
      exact imp u oc (List.mem_cons_of_mem _ member)

theorem mapM_eq_of_forall₂ {us : List Nat} {ocs : List Ocorrencia} {g : Nat → Option Bytes}
    (each : List.Forall₂ (fun u oc => g u = some (Ocorrencia.bytes oc)) us ocs) :
    us.mapM g = some (ocs.map Ocorrencia.bytes) := by
  induction each with
  | nil => rfl
  | cons first rest ih =>
      rw [List.mapM_cons, first, ih]
      rfl

theorem Lido.trecho {j : Nat} {parte : List Ocorrencia} (lido : Lido F partes estado)
    (there : (partes .v2)[j]? = some parte) :
    (estado.ini .v2)[j]? = some (offset 0 ((partes .v2).map List.length) j) ∧
      ((estado.ini .v2)[j + 1]?).getD (estado.recs .v2).length =
        offset 0 ((partes .v2).map List.length) j + parte.length := by
  have inside := (List.getElem?_eq_some_iff.mp there).1
  have lens : ((partes .v2).map List.length)[j]? = some parte.length := by
    rw [List.getElem?_map, there]
    rfl
  have total : (estado.recs .v2).length = (partes .v2).flatten.length :=
    (lido.resume.recs .v2).length_eq
  rw [lido.ini .v2, inicios, List.getElem?_map, List.getElem?_map, List.getElem?_range inside,
    ← offset_succ lens]
  refine ⟨rfl, ?_⟩
  by_cases last : j + 1 < (partes .v2).length
  · rw [List.getElem?_range last]
    rfl
  · have ended : j + 1 = ((partes .v2).map List.length).length := by
      rw [List.length_map]
      omega
    rw [List.getElem?_eq_none (by rw [List.length_range]; omega), ended, offset_end, total,
      Nat.zero_add, List.length_flatten]
    rfl

theorem Lido.bytes (lido : Lido F partes estado)
    (cortados : ∀ ver, partesDe F 0 (fontes ver) = some (partes ver))
    (semColisao : SemColisao F fontes) :
    List.Forall₂ (fun u oc => estado.unicos[u]?.bind (conteudo fontes) = some (Ocorrencia.bytes oc))
      (estado.recs .v2) (partes .v2).flatten := by
  have membros : ∀ oc ∈ (partes .v2).flatten, oc.bytes ∈ pedacos F fontes .v2 := by
    intro oc member
    rw [pedacos, ← bytes_de_partes (cortados .v2)]
    exact List.mem_map_of_mem member
  refine forall₂_imp_mem (lido.resume.recs .v2) fun u oc member aqui => ?_
  obtain ⟨x, mesma, presente, achado⟩ := lido.unico cortados aqui
  have igual := semColisao x presente oc.bytes
    (List.mem_append_right _ (membros oc member)) mesma
  rw [achado, igual]

theorem Lido.remontar (lido : Lido F partes estado)
    (cortados : ∀ ver, partesDe F 0 (fontes ver) = some (partes ver))
    (tiles : CortaTudo F)
    (semColisao : SemColisao F fontes) {j : Nat} {f : Arquivo}
    (there : (fontes .v2)[j]? = some f) : estado.remontar fontes j = some f.dados := by
  obtain ⟨cortes, cortado, parte⟩ := parte_de (cortados .v2) there
  rw [Nat.zero_add] at parte
  obtain ⟨inicio, fim⟩ := lido.trecho parte
  have lugar := take_drop_flatten parte [] []
  rw [List.nil_append, List.append_nil, List.length_nil] at lugar
  have trecho := List.forall₂_take (cortes.map (ocorrencia j f.dados)).length
    (List.forall₂_drop (offset 0 ((partes .v2).map List.length) j)
      (lido.bytes cortados semColisao))
  rw [lugar] at trecho
  rw [Varredura.remontar, inicio, Option.bind_some]
  dsimp only
  rw [fim, Nat.add_sub_cancel_left, mapM_eq_of_forall₂ trecho, Option.map_some, bytes_de_cortes,
    (tiles f.dados cortes cortado).flatten, Nat.sub_zero, List.drop_zero, List.take_length]

/-! ## The files that differ -/

def divergentes (F : Ferramentas) (fs : List Arquivo) : List String :=
  (fs.filter fun f => F.sha256 f.dados ≠ f.s).map Arquivo.c

theorem falhas_eq
    (exato : ∀ j f, (fontes .v2)[j]? = some f → estado.remontar fontes j = some f.dados)
    {j : Nat} {fs : List Arquivo} {achadas : List String} (resto : fs = (fontes .v2).drop j)
    (poucas : achadas.length ≤ 5) :
    estado.falhas F fontes j fs achadas = some ((achadas ++ divergentes F fs).take 6) := by
  induction fs generalizing j achadas with
  | nil =>
      rw [Varredura.falhas, divergentes, List.filter_nil, List.map_nil, List.append_nil,
        List.take_of_length_le (by omega)]
  | cons f fs ih =>
      have there : (fontes .v2)[j]? = some f := by
        rw [← List.head?_drop, ← resto]
        rfl
      have depois : fs = (fontes .v2).drop (j + 1) := by
        rw [← List.tail_drop, ← resto]
        rfl
      rw [Varredura.falhas, exato j f there, Option.bind_some]
      by_cases igual : F.sha256 f.dados = f.s
      · have fora : divergentes F (f :: fs) = divergentes F fs := by
          rw [divergentes, List.filter_cons_of_neg (by simpa using igual)]
          rfl
        rw [if_pos igual, ih depois poucas, fora]
      · have dentro : achadas ++ divergentes F (f :: fs) =
            achadas ++ [f.c] ++ divergentes F fs := by
          rw [divergentes, List.filter_cons_of_pos (by simpa using igual), List.map_cons,
            List.append_assoc]
          rfl
        rw [if_neg igual, dentro]
        split
        · rename_i cheia
          rw [List.length_append, List.length_singleton] at cheia
          have seis : (achadas ++ [f.c]).length = 6 := by
            rw [List.length_append, List.length_singleton]
            omega
          rw [List.take_append_of_le_length seis.ge, List.take_of_length_le seis.le]
        · exact ih depois (by omega)

/-! ## The report -/

theorem tiles_de_corta {sorteio : Sorteio} {cfg : Chunker} (valid : cfg.Valid)
    (corta : F.cortar = chunkear sorteio cfg) : CortaTudo F := by
  intro dados cortes cortado
  obtain ⟨_, same, filled⟩ := chunkear_tiles sorteio valid dados
  rw [← corta, cortado] at same
  cases same
  exact filled

theorem lido_de_corta {sorteio : Sorteio} {cfg : Chunker} (valid : cfg.Valid)
    (corta : F.cortar = chunkear sorteio cfg) (fontes : Fontes) :
    ∃ partes estado, (∀ ver, partesDe F 0 (fontes ver) = some (partes ver)) ∧
      varrerChunks F fontes = some estado ∧ Lido F partes estado := by
  have cortavel : ∀ dados, ∃ cortes, F.cortar dados = some cortes := by
    intro dados
    obtain ⟨cortes, cortado, -⟩ := chunkear_tiles sorteio valid dados
    exact ⟨cortes, corta ▸ cortado⟩
  obtain ⟨primeira, um⟩ := partes_existem cortavel 0 (fontes .v1)
  obtain ⟨segunda, dois⟩ := partes_existem cortavel 0 (fontes .v2)
  have cortados : ∀ ver : Versao, partesDe F 0 (fontes ver) =
      some (Function.update (fun _ => primeira) .v2 segunda ver) := by
    intro ver
    cases ver
    · exact um
    · exact dois
  obtain ⟨estado, varrido, lido⟩ := lido_de_partes cortados
  exact ⟨_, estado, cortados, varrido, lido⟩

theorem Lido.relata (lido : Lido F partes estado)
    (cortados : ∀ ver, partesDe F 0 (fontes ver) = some (partes ver))
    (tiles : CortaTudo F)
    (semColisao : SemColisao F fontes) :
    ∃ relatorio, estado.relatorio F fontes = some relatorio ∧
      relatorio.falhas = (divergentes F (fontes .v2)).take 6 ∧
      relatorio.bitExato = (((divergentes F (fontes .v2)).take 6).isEmpty && estado.codecOk) := by
  have exato : ∀ j f, (fontes .v2)[j]? = some f → estado.remontar fontes j = some f.dados :=
    fun j f there => lido.remontar cortados tiles semColisao there
  have falhas : estado.falhas F fontes 0 (fontes .v2) [] =
      some ((divergentes F (fontes .v2)).take 6) := falhas_eq exato rfl (Nat.zero_le 5)
  exact ⟨_, by rw [Varredura.relatorio, falhas, Option.map_some], rfl, rfl⟩

/-- Whatever the files and the chunker, the scan ends, each file of the second version comes out
of the chunks as it is, and the report of a lossless compressor says so exactly where the
manifest does. -/
theorem varredura_exata (F : Ferramentas) (sorteio : Sorteio) {cfg : Chunker} (valid : cfg.Valid)
    (corta : F.cortar = chunkear sorteio cfg) (fontes : Fontes)
    (semColisao : SemColisao F fontes) :
    ∃ estado relatorio, varrerChunks F fontes = some estado ∧
      (∀ j f, (fontes .v2)[j]? = some f → estado.remontar fontes j = some f.dados) ∧
      estado.relatorio F fontes = some relatorio ∧
      relatorio.falhas = (divergentes F (fontes .v2)).take 6 ∧
      (F.Lossless →
        (relatorio.bitExato = true ↔ ∀ f ∈ fontes .v2, F.sha256 f.dados = f.s)) := by
  obtain ⟨partes, estado, cortados, varrido, lido⟩ := lido_de_corta valid corta fontes
  have tiles := tiles_de_corta valid corta
  obtain ⟨relatorio, relatado, falhas, exatos⟩ := lido.relata cortados tiles semColisao
  refine ⟨estado, relatorio, varrido, fun j f there =>
    lido.remontar cortados tiles semColisao there, relatado, falhas, fun lossless => ?_⟩
  rw [exatos, lido.resume.codec lossless, Bool.and_true, List.isEmpty_iff, List.take_eq_nil_iff,
    divergentes, List.map_eq_nil_iff, List.filter_eq_nil_iff]
  simp

def sorteioNulo : Sorteio := { gear := fun _ => 0, mascaras := fun _ => (0, 0) }

def deDois : Ferramentas :=
  { blake2b := id
    sha256 := id
    comprimir := fun _ => id
    descomprimir := id
    cortar := chunkear sorteioNulo (.fixo 2)
    amostra := 0 }

/-- A file that moved, one that changed at its end, and one whose hash is wrong. -/
def duasVersoes : Fontes
  | .v1 => [⟨"a", [1, 2, 3], [1, 2, 3]⟩, ⟨"b", [4, 5], [4, 5]⟩]
  | .v2 => [⟨"c", [4, 5], [4, 5]⟩, ⟨"a", [1, 2, 7], [1, 2, 7]⟩, ⟨"d", [], [1, 2]⟩]

theorem varredura_exata_dois :
    ∃ estado relatorio, varrerChunks deDois duasVersoes = some estado ∧
      estado.remontar duasVersoes 1 = some [1, 2, 7] ∧
      estado.relatorio deDois duasVersoes = some relatorio ∧ relatorio.falhas = ["d"] ∧
      relatorio.bitExato ≠ true := by
  obtain ⟨estado, relatorio, varrido, remontada, relatado, falhas, exata⟩ :=
    @varredura_exata deDois sorteioNulo (.fixo 2) Nat.two_pos rfl duasVersoes
      fun _ _ _ _ same => same
  refine ⟨estado, relatorio, varrido, remontada 1 _ rfl, relatado, falhas, fun exato => ?_⟩
  exact absurd ((exata fun _ _ => rfl).mp exato) (by decide)

/-! ## The counts -/

theorem logico_eq (tiles : CortaTudo F)
    {i : Nat} {fs : List Arquivo} {novas : List (List Ocorrencia)}
    (cortados : partesDe F i fs = some novas) :
    (novas.flatten.map fun oc => oc.bytes.length).sum = logico fs := by
  induction fs generalizing i novas with
  | nil =>
      cases cortados
      rfl
  | cons f fs ih =>
      obtain ⟨cortes, cortado, resto⟩ := Option.bind_eq_some_iff.mp cortados
      obtain ⟨outras, seguintes, rfl⟩ := Option.map_eq_some_iff.mp resto
      have inteiro := congrArg List.length ((tiles f.dados cortes cortado).flatten f.dados)
      rw [List.length_flatten, ← bytes_de_cortes i, List.map_map, Nat.sub_zero, List.drop_zero,
        List.take_length] at inteiro
      rw [List.flatten_cons, List.map_append, List.sum_append, ih seguintes]
      show _ = (f.dados.length :: fs.map fun g => g.dados.length).sum
      rw [List.sum_cons, ← inteiro]
      rfl

theorem tam_de (tiles : CortaTudo F)
    {i : Nat} {fs : List Arquivo} {novas : List (List Ocorrencia)}
    (cortados : partesDe F i fs = some novas) :
    ∀ oc ∈ novas.flatten, oc.tam = oc.bytes.length := by
  induction fs generalizing i novas with
  | nil =>
      cases cortados
      exact fun oc member => absurd member List.not_mem_nil
  | cons f fs ih =>
      obtain ⟨cortes, cortado, resto⟩ := Option.bind_eq_some_iff.mp cortados
      obtain ⟨outras, seguintes, rfl⟩ := Option.map_eq_some_iff.mp resto
      intro oc member
      rw [List.flatten_cons] at member
      rcases List.mem_append.mp member with aqui | adiante
      · obtain ⟨corte, dele, rfl⟩ := List.mem_map.mp aqui
        have inside := ((tiles f.dados cortes cortado).within corte dele).2
        show corte.2 = ((f.dados.drop corte.1).take corte.2).length
        rw [List.length_take, List.length_drop]
        omega
      · exact ih seguintes oc adiante

variable {vistos : Versao → List Ocorrencia}

theorem novosV1_bytes (F : Ferramentas) (vistos : Versao → List Ocorrencia) :
    (novosV1 F vistos).map Ocorrencia.bytes =
      firsts F.blake2b [] ((vistos .v1).map Ocorrencia.bytes) :=
  firsts_map Ocorrencia.bytes (vistos .v1)

theorem chavesV1_eq (F : Ferramentas) (vistos : Versao → List Ocorrencia) :
    chavesV1 F vistos =
      (firsts F.blake2b [] ((vistos .v1).map Ocorrencia.bytes)).map F.blake2b := by
  rw [← novosV1_bytes, List.map_map]
  rfl

theorem novosV2_bytes (F : Ferramentas) (vistos : Versao → List Ocorrencia) :
    (novosV2 F vistos).map Ocorrencia.bytes =
      firsts F.blake2b ((firsts F.blake2b [] ((vistos .v1).map Ocorrencia.bytes)).map F.blake2b)
        ((vistos .v2).map Ocorrencia.bytes) := by
  rw [← chavesV1_eq]
  exact firsts_map Ocorrencia.bytes (vistos .v2)

theorem novos_bytes (F : Ferramentas) (vistos : Versao → List Ocorrencia) :
    (novosV1 F vistos ++ novosV2 F vistos).map Ocorrencia.bytes =
      firsts F.blake2b []
        ((vistos .v1).map Ocorrencia.bytes ++ (vistos .v2).map Ocorrencia.bytes) := by
  rw [List.map_append, novosV1_bytes, novosV2_bytes, firsts_append, List.nil_append]

theorem soma_unicos {f : Unico → Nat} {g : Bytes → Nat}
    (dos_bytes : ∀ ver, ∀ oc ∈ vistos .v1 ++ vistos .v2, f (oc.unico F ver) = g oc.bytes) :
    somaUnicos (unicosDe F vistos) f =
      ((firsts F.blake2b []
        ((vistos .v1).map Ocorrencia.bytes ++ (vistos .v2).map Ocorrencia.bytes)).map g).sum := by
  have primeiros : ∀ oc ∈ novosV1 F vistos, f (oc.unico F .v1) = g oc.bytes := fun oc member =>
    dos_bytes .v1 oc (List.mem_append_left _ (firsts_sublist.mem member))
  have segundos : ∀ oc ∈ novosV2 F vistos, f (oc.unico F .v2) = g oc.bytes := fun oc member =>
    dos_bytes .v2 oc (List.mem_append_right _ (firsts_sublist.mem member))
  rw [← novos_bytes, somaUnicos, unicosDe, List.map_append, List.map_append, List.map_append,
    List.map_map, List.map_map, List.map_map, List.map_map]
  congr 2
  · exact List.map_congr_left primeiros
  · exact List.map_congr_left segundos

theorem somaOc_bytes {ocs : List Ocorrencia} (medidos : ∀ oc ∈ ocs, oc.tam = oc.bytes.length) :
    somaOc ocs = (ocs.map fun oc => oc.bytes.length).sum := by
  rw [somaOc, List.map_congr_left medidos]

theorem unicos_v1 (F : Ferramentas) (vistos : Versao → List Ocorrencia) :
    ((unicosDe F vistos).filter fun u => u.ver = .v1).length = (novosV1 F vistos).length := by
  have todos : ((novosV1 F vistos).map (Ocorrencia.unico F .v1)).filter
      (fun u => u.ver = .v1) = (novosV1 F vistos).map (Ocorrencia.unico F .v1) := by
    apply List.filter_eq_self.mpr
    intro u member
    obtain ⟨oc, -, rfl⟩ := List.mem_map.mp member
    rfl
  have nenhum : ((novosV2 F vistos).map (Ocorrencia.unico F .v2)).filter
      (fun u => u.ver = .v1) = [] := by
    apply List.filter_eq_nil_iff.mpr
    intro u member
    obtain ⟨oc, -, rfl⟩ := List.mem_map.mp member
    simp [Ocorrencia.unico]
  rw [unicosDe, List.filter_append, todos, nenhum, List.append_nil, List.length_map]

theorem semColisao_v1 (semColisao : SemColisao F fontes) :
    ∀ x ∈ pedacos F fontes .v1, ∀ y ∈ pedacos F fontes .v1, F.blake2b x = F.blake2b y → x = y :=
  fun x before y after =>
    semColisao x (List.mem_append_left _ before) y (List.mem_append_left _ after)

theorem Lido.bytes_de (cortados : ∀ ver, partesDe F 0 (fontes ver) = some (partes ver))
    (ver : Versao) : (partes ver).flatten.map Ocorrencia.bytes = pedacos F fontes ver :=
  bytes_de_partes (cortados ver)

theorem Lido.soma (lido : Lido F partes estado)
    (cortados : ∀ ver, partesDe F 0 (fontes ver) = some (partes ver))
    (semColisao : SemColisao F fontes) {f : Unico → Nat} {g : Bytes → Nat}
    (dos_bytes : ∀ ver, ∀ oc ∈ (partes .v1).flatten ++ (partes .v2).flatten,
      f (oc.unico F ver) = g oc.bytes) :
    somaUnicos estado.unicos f =
      ∑ x ∈ (pedacos F fontes .v1 ++ pedacos F fontes .v2).toFinset, g x := by
  have total := @soma_unicos F (fun ver => (partes ver).flatten) f g dos_bytes
  beta_reduce at total
  rw [Lido.bytes_de cortados, Lido.bytes_de cortados] at total
  rw [lido.resume.unicos, total]
  exact sum_firsts_nil g semColisao

theorem Lido.nUnicos (lido : Lido F partes estado)
    (cortados : ∀ ver, partesDe F 0 (fontes ver) = some (partes ver))
    (semColisao : SemColisao F fontes) :
    estado.unicos.length = (pedacos F fontes .v1 ++ pedacos F fontes .v2).toFinset.card := by
  have um := lido.soma cortados semColisao (f := fun _ => 1) (g := fun _ => 1) fun _ _ _ => rfl
  rw [somaUnicos] at um
  simpa using um

theorem Lido.nUnicosV1 (lido : Lido F partes estado)
    (cortados : ∀ ver, partesDe F 0 (fontes ver) = some (partes ver))
    (semColisao : SemColisao F fontes) :
    (estado.unicos.filter fun u => u.ver = .v1).length = (pedacos F fontes .v1).toFinset.card := by
  have primeiros := novosV1_bytes F fun ver => (partes ver).flatten
  beta_reduce at primeiros
  rw [Lido.bytes_de cortados] at primeiros
  rw [lido.resume.unicos, unicos_v1, ← List.length_map Ocorrencia.bytes, primeiros]
  exact length_firsts_nil (semColisao_v1 semColisao)

/-- A chunk of the second version has a hash of the first one where its bytes came there. -/
theorem antiga_iff (cortados : ∀ ver, partesDe F 0 (fontes ver) = some (partes ver))
    (semColisao : SemColisao F fontes) {oc : Ocorrencia} (member : oc ∈ (partes .v2).flatten) :
    (oc.chave F ∈ chavesV1 F fun ver => (partes ver).flatten) ↔
      oc.bytes ∈ pedacos F fontes .v1 := by
  have dela : oc.bytes ∈ pedacos F fontes .v2 :=
    Lido.bytes_de cortados .v2 ▸ List.mem_map_of_mem member
  have todos := toFinset_firsts_nil (semColisao_v1 semColisao)
  rw [chavesV1_eq, Lido.bytes_de cortados, ← List.mem_toFinset (l := pedacos F fontes .v1),
    ← todos, List.mem_toFinset]
  constructor
  · intro known
    obtain ⟨x, primeiro, mesma⟩ := List.mem_map.mp known
    have dele := List.mem_append_left (pedacos F fontes .v2) (firsts_sublist.mem primeiro)
    rwa [← semColisao x dele oc.bytes (List.mem_append_right _ dela) mesma]
  · exact List.mem_map_of_mem

theorem Lido.vsV1 (lido : Lido F partes estado)
    (cortados : ∀ ver, partesDe F 0 (fontes ver) = some (partes ver))
    (tiles : CortaTudo F)
    (semColisao : SemColisao F fontes) :
    estado.vsV1 =
      (((pedacos F fontes .v2).filter (· ∈ pedacos F fontes .v1)).map List.length).sum := by
  have deles : ∀ oc ∈ antigos F fun ver => (partes ver).flatten, oc.tam = oc.bytes.length :=
    fun oc member => tam_de tiles (cortados .v2) oc (List.mem_filter.mp member).1
  have mesmos : ∀ oc ∈ (partes .v2).flatten,
      decide (oc.chave F ∈ chavesV1 F fun ver => (partes ver).flatten) =
        decide (oc.bytes ∈ pedacos F fontes .v1) :=
    fun oc member => decide_eq_decide.mpr (antiga_iff cortados semColisao member)
  rw [lido.resume.vs, somaOc_bytes deles, antigos, List.filter_congr mesmos,
    ← Lido.bytes_de cortados .v2, List.filter_map, List.map_map]
  rfl

/-- What is not a duplicate is new to the second version. -/
theorem Lido.dupTotal (lido : Lido F partes estado)
    (cortados : ∀ ver, partesDe F 0 (fontes ver) = some (partes ver))
    (tiles : CortaTudo F)
    (semColisao : SemColisao F fontes) :
    estado.dupTotal +
        ∑ x ∈ (pedacos F fontes .v2).toFinset \ (pedacos F fontes .v1).toFinset, x.length =
      logico (fontes .v2) := by
  have repetidos : ∀ oc ∈ duplicados F fun ver => (partes ver).flatten,
      oc.tam = oc.bytes.length :=
    fun oc member => tam_de tiles (cortados .v2) oc (repeats_sublist.mem member)
  have separados : ∀ x ∈ firsts F.blake2b [] (pedacos F fontes .v1) ++ pedacos F fontes .v2,
      ∀ y ∈ firsts F.blake2b [] (pedacos F fontes .v1) ++ pedacos F fontes .v2,
        F.blake2b x = F.blake2b y → x = y := fun x before y after =>
    semColisao x ((firsts_sublist.append_right _).mem before) y
      ((firsts_sublist.append_right _).mem after)
  have segundos := novosV2_bytes F fun ver => (partes ver).flatten
  beta_reduce at segundos
  rw [Lido.bytes_de cortados, Lido.bytes_de cortados] at segundos
  have novos : ((novosV2 F fun ver => (partes ver).flatten).map fun oc => oc.bytes.length).sum =
      ∑ x ∈ (pedacos F fontes .v2).toFinset \ (pedacos F fontes .v1).toFinset, x.length := by
    rw [← toFinset_firsts_nil (semColisao_v1 semColisao), ← sum_firsts List.length separados,
      ← segundos, List.map_map]
    rfl
  have partilha := @sum_firsts_repeats _ _ _ _ (Ocorrencia.chave F)
    (chavesV1 F fun ver => (partes ver).flatten) (partes .v2).flatten fun oc => oc.bytes.length
  rw [lido.resume.dup, somaOc_bytes repetidos, ← novos, Nat.add_comm,
    ← logico_eq tiles (cortados .v2)]
  exact partilha

/-- The counts of the report are those of the sets of distinct chunks. -/
theorem varredura_contas (F : Ferramentas) (sorteio : Sorteio) {cfg : Chunker} (valid : cfg.Valid)
    (corta : F.cortar = chunkear sorteio cfg) (fontes : Fontes)
    (semColisao : SemColisao F fontes) (estado : Varredura) (relatorio : Relatorio)
    (varrido : varrerChunks F fontes = some estado)
    (relatado : estado.relatorio F fontes = some relatorio) :
    relatorio.nUnicosV1 = (pedacos F fontes .v1).toFinset.card ∧
      relatorio.nUnicos = (pedacos F fontes .v1 ++ pedacos F fontes .v2).toFinset.card ∧
      relatorio.bytesUnicos =
        ∑ x ∈ (pedacos F fontes .v1 ++ pedacos F fontes .v2).toFinset, x.length ∧
      relatorio.armazenadoZ3 =
        ∑ x ∈ (pedacos F fontes .v1 ++ pedacos F fontes .v2).toFinset, (F.comprimir 3 x).length ∧
      relatorio.bytesV2JaEmV1 =
        (((pedacos F fontes .v2).filter (· ∈ pedacos F fontes .v1)).map List.length).sum ∧
      relatorio.bytesV2Duplicados +
          ∑ x ∈ (pedacos F fontes .v2).toFinset \ (pedacos F fontes .v1).toFinset, x.length =
        relatorio.logicoV2 := by
  obtain ⟨partes, outro, cortados, igual, lido⟩ := lido_de_corta valid corta fontes
  rw [varrido] at igual
  cases igual
  obtain ⟨falhas, -, rfl⟩ := Option.map_eq_some_iff.mp relatado
  have tiles := tiles_de_corta valid corta
  have medidos : ∀ ver, ∀ oc ∈ (partes .v1).flatten ++ (partes .v2).flatten,
      (oc.unico F ver).tam = oc.bytes.length := fun ver oc member =>
    (List.mem_append.mp member).elim (tam_de tiles (cortados .v1) oc)
      (tam_de tiles (cortados .v2) oc)
  exact ⟨lido.nUnicosV1 cortados semColisao, lido.nUnicos cortados semColisao,
    lido.soma cortados semColisao medidos, lido.soma cortados semColisao fun _ _ _ => rfl,
    lido.vsV1 cortados tiles semColisao, lido.dupTotal cortados tiles semColisao⟩

theorem varredura_contas_dois :
    ∃ estado relatorio, varrerChunks deDois duasVersoes = some estado ∧
      estado.relatorio deDois duasVersoes = some relatorio ∧
      relatorio.nUnicos = 4 ∧ relatorio.bytesV2JaEmV1 = 6 := by
  have valid : (Chunker.fixo 2).Valid := Nat.two_pos
  have distintos : SemColisao deDois duasVersoes := fun _ _ _ _ same => same
  obtain ⟨partes, estado, cortados, varrido, lido⟩ :=
    @lido_de_corta deDois sorteioNulo (.fixo 2) valid rfl duasVersoes
  obtain ⟨relatorio, relatado, -⟩ := lido.relata cortados
    (@tiles_de_corta deDois sorteioNulo _ valid rfl) distintos
  obtain ⟨-, unicos, -, -, jaEmV1, -⟩ := varredura_contas deDois sorteioNulo valid rfl duasVersoes
    distintos estado relatorio varrido relatado
  exact ⟨estado, relatorio, varrido, relatado, unicos.trans (by decide), jaEmV1.trans (by decide)⟩

end Bench

end Syntra

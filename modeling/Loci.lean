import Loci.Buffer
import Loci.Object
import Loci.Length
import Loci.Extension
import Loci.Tlv16
import Loci.Oxm
import Loci.OxmRefinement
import Loci.Registers
import Loci.Layout

import BgtDvb.Lib.GuardedRun
import BgtDvb.SectionBuf
import BgtDvb.SectionReassembly
import BgtDvb.Lib.RegFile
import BgtDvb.Saa7231Dev
import BgtDvb.Saa7231Ring
import BgtDvb.Saa7231Ts2dtl
import BgtDvb.Saa7231Dvb
import BgtDvb.Saa7231DmaHandoff
import BgtDvb.Saa7231Feed
import BgtDvb.Saa7231Irq
import BgtDvb.Saa7231Cgu
import BgtDvb.Saa7231I2c
import BgtDvb.Saa7231ClkShadow
import BgtDvb.Saa7231AdcUse
import BgtDvb.En50221Asn1
import BgtDvb.En50221Transport
import BgtDvb.En50221Chain
import BgtDvb.Crc32
import BgtDvb.SectionExt
import BgtDvb.Cxd2817
import BgtDvb.Cxd2817Tune
import BgtDvb.PsiTable
import BgtDvb.TransportPacket
import BgtDvb.TransportPacketIso
import BgtDvb.En50221Spdu
import BgtDvb.En50221Session
import BgtDvb.En50221SessionOpen
import BgtDvb.En50221Host
import BgtDvb.En50221Send
import BgtDvb.En50221Effect
import BgtDvb.En50221Reuse
import BgtDvb.En50221Module
import BgtDvb.En50221Interleave
import BgtDvb.En50221Stdcam
import BgtDvb.En50221StdcamSession
import BgtDvb.En50221Apdu
import BgtDvb.En50221Mmi
import BgtDvb.En50221MmiMenu
import BgtDvb.Lib.CString
import BgtDvb.Lib.ScanInt
import BgtDvb.DmxDemux
import BgtDvb.DvbRingbuffer
import BgtDvb.DvbcfgCommon
import BgtDvb.DvbcfgZapchannel
import BgtDvb.DvbcfgScanfile
import BgtDvb.DvbcfgComments
import BgtDvb.Lib.Tlv
import BgtDvb.PmtSection
import BgtDvb.En50221CaPmt
import BgtDvb.Lib.Bitfield
import BgtDvb.ScanSection
import BgtDvb.ScanFilters
import BgtDvb.ScanTransponder
import BgtDvb.DvbsecCfg
import BgtDvb.DvbsecCommand
import BgtDvb.DvbsecLanguage
import BgtDvb.Lib.Walks
import BgtDvb.SectionWalk
import BgtDvb.PmtGrammar
import BgtDvb.AtscDcct
import BgtDvb.AtscDcctSyntax
import BgtDvb.ScanZap
import BgtDvb.TableCodecs
import BgtDvb.TableCodecsSafe
import BgtDvb.TableOverruns
import BgtDvb.SectionChain
import BgtDvb.Lib.Looks
import BgtDvb.TransportPacketReads
import BgtDvb.SectionArea
import BgtDvb.Lib.Dllist
import BgtDvb.AlevtFdset
import BgtDvb.AlevtCache
import BgtDvb.Lib.CyclicWalk
import BgtDvb.AlevtForeach
import BgtDvb.AlevtPes
import BgtDvb.AlevtHamm
import BgtDvb.AlevtLang
import BgtDvb.AlevtVtLine
import BgtDvb.AlevtAttribution
import BgtDvb.AlevtAssembly
import BgtDvb.En50221Walks
import BgtDvb.AtscText
import BgtDvb.Saa7231NullCall
import BgtDvb.Saa7231Locks
import BgtDvb.Saa7231PageTable
import BgtDvb.Cxd2817Stats
import BgtDvb.Cxd2817Offset
import BgtDvb.Cxd2850Ber
import BgtDvb.AtscHufftree
import BgtDvb.AtscSegment
import BgtDvb.GnutvPat
import BgtDvb.Lib.Mealy
import BgtDvb.AlevtAttrs
import BgtDvb.AlevtXio
import BgtDvb.AlevtFmtPage
import BgtDvb.AlevtRenderers
import BgtDvb.Lib.Recode
import BgtDvb.UcsiBcd
import BgtDvb.Lib.EarlyStop
import BgtDvb.Cxd2850Cnr
import BgtDvb.Cxd2850Diseqc
import BgtDvb.Cxd2850Spur
import BgtDvb.Cxd2861
import BgtDvb.TransportLoop
import BgtDvb.Lib.ByteField
import BgtDvb.Stv6110x
import BgtDvb.Lib.Traced
import BgtDvb.Tda18272Coeff
import BgtDvb.Tda18272
import BgtDvb.Lib.Calendar
import BgtDvb.UcsiDvbdate
import BgtDvb.DvbsecSet
import BgtDvb.DvbsecTokens
import BgtDvb.ScanDescriptors
import BgtDvb.ScanVct
import BgtDvb.Lib.Mutex
import BgtDvb.En50221AppLocks
import BgtDvb.En50221ReplyBounds
import BgtDvb.IntTargets
import BgtDvb.Lib.Layouts
import BgtDvb.OdsmtStreams
import BgtDvb.AtscTextSyntax
import BgtDvb.RrtSyntax
import BgtDvb.DccsctWay
import BgtDvb.DccsctSyntax
import BgtDvb.AlevtErc
import BgtDvb.AlevtSearch
import BgtDvb.AlevtEnhance
import BgtDvb.Lib.BitForms
import BgtDvb.AlevtHammLaw
import BgtDvb.DescriptorWalk
import BgtDvb.MosaicDescriptor
import BgtDvb.LinkageDescriptor
import BgtDvb.MetadataDescriptor
import BgtDvb.ScanCharset
import BgtDvb.Lib.Markup
import BgtDvb.AlevtFormatted
import BgtDvb.AlevtHtml
import BgtDvb.AlevtHtmlText
import BgtDvb.AlevtAnsi
import BgtDvb.AlevtXioMasks
import BgtDvb.Lib.Circular
import BgtDvb.Saa7231RingFifo
import BgtDvb.Lib.BigEndianBits
import BgtDvb.ScanGetBits
import BgtDvb.GnutvUdp
import BgtDvb.Lib.LinkedQueue
import BgtDvb.En50221SendQueue
import BgtDvb.Lib.CheckedRead
import BgtDvb.EsgTypes
import BgtDvb.EsgDecoders
import BgtDvb.EsgBounds
import BgtDvb.Lib.Collected
import BgtDvb.AtscEpgEit
import BgtDvb.AtscEpgCollect
